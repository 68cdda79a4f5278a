import SqlFragments.Proofs.Outcome
import SqlFragments.Render.Options

/-!
# Renders under options

What a thing renders to under options that are normalized first, and what normalizing reads off
named settings.
-/

namespace SqlFragments

/-! ## Keys that are texts -/

private theorem compareNumbers_text (value : Value) (s : String) :
    Value.compareNumbers value (.text s) = some false := by
  have hnumber : (Value.text s).isNumber = false := rfl
  have hequal : value.numericallyEqual (.text s) = false := by
    unfold Value.numericallyEqual
    cases value.magnitude? <;> rfl
  simp [Value.compareNumbers, hnumber, hequal]

theorem Value.sameKey_text {key : Value} {s : String} :
    key.sameKey (.text s) = true ↔ key = .text s := by
  constructor
  · intro h
    cases key with
    | text t =>
      have ht : t = s := by
        simpa [Value.sameKey, Value.same?, Value.identicalNaN, Value.equal?] using h
      rw [ht]
    | float label x | decimal label x =>
      simp [Value.sameKey, Value.same?, Value.identicalNaN, Value.equal?, compareNumbers_text] at h
    | _ => cases h
  · rintro rfl
    simp [Value.sameKey, Value.same?, Value.identicalNaN, Value.equal?]

namespace Entries

variable {α : Type}

theorem get?_insert_self (entries : Entries α) (s : String) (a : α) :
    (entries.insert (.text s) a).get? (.text s) = some a := by
  have hself : (Value.text s).sameKey (.text s) = true := Value.sameKey_text.2 rfl
  induction entries with
  | nil => simp [insert, get?, hself]
  | cons entry rest ih =>
    by_cases h : entry.1.sameKey (.text s) = true
    · simp [insert, get?, h]
    · simp only [insert, if_neg h]
      simpa [get?, h] using ih

theorem get?_insert_of_ne (entries : Entries α) {s t : String} (a : α) (hne : t ≠ s) :
    (entries.insert (.text s) a).get? (.text t) = entries.get? (.text t) := by
  have hother : ∀ key : Value, key.sameKey (.text s) = true →
      key.sameKey (.text t) = false := by
    intro key hs
    rw [Bool.eq_false_iff]
    intro ht
    rw [Value.sameKey_text] at hs ht
    rw [hs] at ht
    exact hne (Value.text.inj ht).symm
  have hself : (Value.text s).sameKey (.text t) = false := hother _ (Value.sameKey_text.2 rfl)
  induction entries with
  | nil => simp [insert, get?, hself]
  | cons entry rest ih =>
    by_cases h : entry.1.sameKey (.text s) = true
    · simp [insert, get?, h, hother _ h]
    · simp only [insert, if_neg h]
      by_cases ht : entry.1.sameKey (.text t) = true
      · simp [get?, ht]
      · simpa [get?, ht] using ih

end Entries

/-! ## Normalized contexts -/

theorem holds_of_setting {α : Type} {Q : α → Prop} {given : Option Setting}
    {read : Setting → α} {usual : α} (husual : Q usual)
    (h : ∀ setting, given = some setting → setting.isTruthy = true → Q (read setting)) :
    Q (((given.filter Setting.isTruthy).map read).getD usual) := by
  cases given with
  | none => exact husual
  | some setting =>
    by_cases htruthy : setting.isTruthy = true
    · simpa [Option.filter, htruthy] using h setting rfl htruthy
    · simpa [Option.filter, htruthy] using husual

namespace Context

/-- A context holds what the six settings say: an escaper or time zone that counts as true, and
everything but false for placeholders. -/
theorem ofFields_eq (fields : Entries Setting) :
    ofFields fields = {
      escape := (((fields.get? (.text "escape")).filter Setting.isTruthy).map
        Setting.toLiteralEscaper).getD .standard
      escapeId := (((fields.get? (.text "escape_id")).filter Setting.isTruthy).map
        Setting.toIdentifierEscaper).getD .standard
      withParameters := match fields.get? (.text "with_parameters") with
        | some (.value (.bool false)) => false
        | _ => true
      timezone := (((fields.get? (.text "timezone")).filter Setting.isTruthy).map
        Setting.toValue).getD (.text "Z")
      preparing := ((fields.get? (.text "preparing")).filter Setting.isTruthy).isSome
      method := ((fields.get? (.text "method")).map Setting.toValue).getD .null } := rfl

theorem withParameters_ofFields (fields : Entries Setting) :
    (ofFields fields).withParameters = true ↔
      fields.get? withParametersKey ≠ some (.value (.bool false)) := by
  rw [ofFields_eq, withParametersKey]
  constructor
  · intro h hfalse
    rw [hfalse] at h
    cases h
  · intro h
    split
    · next hfalse => exact absurd hfalse h
    · rfl

theorem ofFields_insert_withParameters (fields : Entries Setting) (b : Bool) :
    ofFields (fields.insert withParametersKey (.value (.bool b))) =
      { ofFields fields with withParameters := b } := by
  have hother : ∀ name, name ≠ "with_parameters" →
      (fields.insert withParametersKey (.value (.bool b))).get? (.text name) =
        fields.get? (.text name) :=
    fun name hne => Entries.get?_insert_of_ne fields _ hne
  have hself : (fields.insert withParametersKey (.value (.bool b))).get?
      (.text "with_parameters") = some (.value (.bool b)) := Entries.get?_insert_self fields _ _
  rw [ofFields_eq, ofFields_eq, hself, hother "escape" (by decide), hother "escape_id" (by decide),
    hother "timezone" (by decide), hother "preparing" (by decide), hother "method" (by decide)]
  cases b <;> rfl

theorem ofFields_inlinedFields (fields : Entries Setting) :
    ofFields (inlinedFields fields) = { ofFields fields with withParameters := false } :=
  ofFields_insert_withParameters fields false

end Context

/-! ## Contexts normalized again -/

namespace Context

private theorem toLiteralEscaper_literalSetting (escaper : LiteralEscaper) :
    (literalSetting escaper).toLiteralEscaper = escaper := by
  cases escaper <;> rfl

private theorem toIdentifierEscaper_identifierSetting (escaper : IdentifierEscaper) :
    (identifierSetting escaper).toIdentifierEscaper = escaper := by
  cases escaper <;> rfl

private theorem isTruthy_literalSetting {setting : Setting} (h : setting.isTruthy = true) :
    (literalSetting setting.toLiteralEscaper).isTruthy = true := by
  cases setting with
  | value v => exact h
  | literalEscaper escaper =>
    cases escaper with
    | broken given => exact h
    | standard | custom => rfl
  | identifierEscaper escaper => rfl

private theorem isTruthy_identifierSetting {setting : Setting} (h : setting.isTruthy = true) :
    (identifierSetting setting.toIdentifierEscaper).isTruthy = true := by
  cases setting with
  | value v => exact h
  | identifierEscaper escaper =>
    cases escaper with
    | broken given => exact h
    | standard | custom => rfl
  | literalEscaper escaper => cases escaper <;> rfl

private theorem settled {α : Type} {given : Option Setting} {read : Setting → α}
    {write : α → Setting} {default : α} (hread : ∀ a, read (write a) = a)
    (htruthy : ∀ setting, setting.isTruthy = true → (write (read setting)).isTruthy = true)
    (hdefault : (write default).isTruthy = true) :
    ((some (write (((given.filter Setting.isTruthy).map read).getD default))).filter
      Setting.isTruthy |>.map read).getD default =
      ((given.filter Setting.isTruthy).map read).getD default := by
  have hwritten : (write (((given.filter Setting.isTruthy).map read).getD default)).isTruthy =
      true := by
    cases hgiven : given.filter Setting.isTruthy with
    | none => exact hdefault
    | some setting => exact htruthy setting (Option.filter_eq_some_iff.1 hgiven).2
  rw [Option.filter_some, if_pos hwritten, Option.map_some, Option.getD_some, hread]

private theorem get?_toEntries (settings : Settings) :
    settings.toEntries.get? (.text "escape") = some settings.escape ∧
      settings.toEntries.get? (.text "escape_id") = some settings.escapeId ∧
      settings.toEntries.get? (.text "with_parameters") = some settings.withParameters ∧
      settings.toEntries.get? (.text "timezone") = some settings.timezone ∧
      settings.toEntries.get? (.text "preparing") = some settings.preparing ∧
      settings.toEntries.get? (.text "method") = some settings.method := by
  have hsame : ∀ s t : String, (Value.text s).sameKey (.text t) = decide (s = t) := by
    intro s t
    rw [Bool.eq_iff_iff, Value.sameKey_text, decide_eq_true_eq, Value.text.injEq]
  simp [Settings.toEntries, Entries.get?, hsame]

theorem ofFields_toEntries (fields : Entries Setting) :
    ofFields (ofFields fields).toSettings.toEntries = ofFields fields := by
  obtain ⟨hescape, hescapeId, hparameters, htimezone, hpreparing, hmethod⟩ :=
    get?_toEntries (ofFields fields).toSettings
  have htruthy : ∀ setting : Setting, setting.isTruthy = true →
      (Setting.value setting.toValue).isTruthy = true := fun _ h => h
  rw [ofFields_eq (ofFields fields).toSettings.toEntries, hescape, hescapeId, hparameters,
    htimezone, hpreparing, hmethod, ofFields_eq]
  simp only [toSettings]
  rw [settled toLiteralEscaper_literalSetting (fun _ => isTruthy_literalSetting) rfl,
    settled toIdentifierEscaper_identifierSetting (fun _ => isTruthy_identifierSetting) rfl,
    settled (fun _ => rfl) htruthy rfl]
  have hoff : ∀ b : Bool, (match some (Setting.value (.bool b)) with
      | some (.value (.bool false)) => false
      | _ => true) = b := by
    intro b
    cases b <;> rfl
  have hon : ∀ b : Bool, ((some (Setting.value (.bool b))).filter Setting.isTruthy).isSome = b := by
    intro b
    cases b <;> rfl
  rw [hon]
  congr 1
  exact hoff _

end Context

theorem Options.normalize_toSettings {options : Options} {context : Context}
    (h : options.normalize = .ok context) :
    (Options.constructed context.toSettings).normalize = .ok context := by
  obtain ⟨fields, _, rfl⟩ := Outcome.map_eq_ok.1 h
  exact congrArg Except.ok (Context.ofFields_toEntries fields)

/-! ## Renders -/

/-- What a thing renders to under options. -/
def Options.render (options : Options) (env : Environment) (target : Value) :
    Except Failure Rendered := do
  let context ← options.normalize
  (evaluate env context target).answer

theorem Options.render_of_normalize {options : Options} {context : Context}
    (h : options.normalize = .ok context) (env : Environment) (target : Value) :
    options.render env target = (evaluate env context target).answer := by
  rw [Options.render, h]
  rfl

theorem Options.render_of_normalize_error {options : Options} {cause : Failure}
    (h : options.normalize = .error cause) (env : Environment) (target : Value) :
    options.render env target = .error cause := by
  rw [Options.render, h]
  rfl

theorem Options.render_of_fields {options : Options} {fields : Entries Setting}
    (h : options.fields = .ok fields) (env : Environment) (target : Value) :
    options.render env target = (evaluate env (Context.ofFields fields) target).answer := by
  rw [Options.render, Options.normalize, h]
  rfl

end SqlFragments
