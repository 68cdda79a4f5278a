import SqlFragments.Journal.Setup
import SqlFragments.Proofs.Render.Comparison

/-!
# Records written down

What a handler writes for the record of a render compares where the settings in the record belong
to what is written out.
-/

namespace SqlFragments

variable {P : Value → Prop}

private theorem mem_assignField {fields : List (String × Value)} {name : String} {value : Value}
    {field : String × Value} (h : field ∈ assignField fields name value) :
    field = (name, value) ∨ field ∈ fields := by
  induction fields with
  | nil => exact .inl (List.mem_singleton.1 h)
  | cons first rest ih =>
    rw [assignField] at h
    split at h
    · rcases List.mem_cons.1 h with h | h
      · exact .inl h
      · exact .inr (List.mem_cons_of_mem first h)
    · rcases List.mem_cons.1 h with h | h
      · exact .inr (h ▸ List.mem_cons_self)
      · exact (ih h).imp_right (List.mem_cons_of_mem first)

private theorem forall_foldl_assignField {own extra : List (String × Value)}
    (hown : ∀ field ∈ own, P field.2) (hextra : ∀ field ∈ extra, P field.2) :
    ∀ field ∈ extra.foldl
      (fun fields (field : String × Value) => assignField fields field.1 field.2) own,
      P field.2 := by
  induction extra generalizing own with
  | nil => exact hown
  | cons first rest ih =>
    rw [List.forall_mem_cons] at hextra
    apply ih _ hextra.2
    intro field hfield
    rcases mem_assignField hfield with rfl | hfield
    · exact hextra.1
    · exact hown field hfield

theorem Journal.Record.forall_fields {record : Journal.Record} (hnull : P .null)
    (htext : ∀ s, P (.text s)) (hfunction : P record.functionName)
    (hextra : ∀ field ∈ record.extra, P field.2) (message : String) :
    ∀ field ∈ record.fields message, P field.2 := by
  apply forall_foldl_assignField _ hextra
  intro field hfield
  rcases List.mem_append.1 hfield with hfield | hfield
  · simp only [List.mem_cons, List.not_mem_nil, or_false] at hfield
    rcases hfield with rfl | rfl | rfl | rfl | rfl | rfl | rfl
    · exact hnull
    · exact htext _
    · exact htext _
    · exact htext _
    · exact htext _
    · exact hfunction
    · exact hnull
  · cases hthrown : record.exception with
    | none =>
      rw [hthrown] at hfield
      cases hfield
    | some thrown =>
      rw [hthrown] at hfield
      rw [List.mem_singleton.1 hfield]
      exact htext _

theorem Journal.Record.text_of_arguments {record : Journal.Record} (h : record.arguments = [])
    (env : Environment) : record.text env = pure record.message := by
  rw [Journal.Record.text, h]
  rfl

namespace Comparison

variable {env env' : Environment} (C : Comparison env env')

theorem format (handler : Journal.Handler) {kindName : String} {withParameters : Bool}
    {timezone method : Value} (htimezone : C.Writable timezone) (hmethod : C.Writable method)
    {record : Journal.Record} (hrecord : Journal.Record.ofEvent? (.rendering kindName
      withParameters timezone method) = some record) :
    C.Related (handler.format env record) (handler.format env' record) := by
  cases hrecord
  unfold Journal.Handler.format
  split
  · unfold Journal.Record.members
    rw [Journal.Record.text_of_arguments rfl, Journal.Record.text_of_arguments rfl, pure_bind,
      pure_bind]
    have hextra : ∀ field ∈ Journal.Record.settingFields (.bool withParameters) timezone method,
        C.Writable field.2 := by
      simp [Journal.Record.settingFields, C.parts.bool, htimezone, hmethod]
    apply C.bind
    · apply C.mapM
      intro field hfield
      have hvalue := Journal.Record.forall_fields C.parts.null C.parts.text (C.parts.text _)
        hextra _ field hfield
      apply C.bind (C.json field.2 hvalue)
      intro tree _
      exact C.pure _
    · intro members _
      exact C.pure _
  · unfold Journal.Record.line
    rw [Journal.Record.text_of_arguments rfl, Journal.Record.text_of_arguments rfl, pure_bind,
      pure_bind]
    exact C.pure _

end Comparison

end SqlFragments
