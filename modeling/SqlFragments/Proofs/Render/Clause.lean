import SqlFragments.Proofs.Render.Splice
import SqlFragments.Proofs.Render.Totality

/-!
# Clauses and templates

A clause evaluates its value itself, a template promotes what stands between its parts. Both come to
the same statement, or fail for the same cause, but where the value comes to no text the clause
leaves its wording out.
-/

namespace SqlFragments

open Outcome Text

variable {env : Environment} {context : Context}

/-! ## Callable escapers -/

structure Context.Calls (context : Context) : Prop where
  escape : context.escape.isCallable = true
  escapeId : context.escapeId.isCallable = true

theorem Context.calls_or (context : Context) :
    context.Calls ∨ ∃ cause, ∀ f, context.allow f = .error cause := by
  cases hescape : context.escape.isCallable with
  | false => exact .inr ⟨.literalEscaperExpected, fun f => by simp [allow, hescape]⟩
  | true =>
    cases hescapeId : context.escapeId.isCallable with
    | false => exact .inr ⟨.identifierEscaperExpected, fun f => by simp [allow, hescape, hescapeId]⟩
    | true => exact .inl ⟨hescape, hescapeId⟩

namespace Context.Calls

variable (hcalls : context.Calls)

include hcalls

theorem allow {f : Fragment} (h : f.assignable? = none) : context.allow f = .ok () := by
  have hrenderable : f.isRenderable = true := by
    cases f with
    | leaf | probe | deferred | endless | unrenderable => cases h
    | _ => rfl
  rw [Context.allow_eq_ok]
  exact ⟨hcalls.escape, hcalls.escapeId, hrenderable⟩

theorem answer_promote {value : Value} (h : value.isPlain = true → ∃ s, value = .text s) :
    (promote env context value).answer = (evaluate env context value).answer := by
  by_cases hplain : value.isPlain = true
  · obtain ⟨s, rfl⟩ := h hplain
    rw [promote, if_pos hplain, evaluate_text, if_pos (.inr hcalls.escape), answer_bind, answer_bind,
      Context.parameter, answer_bind, answer_enter, hcalls.allow rfl]
    rfl
  · rw [promote, if_neg hplain]

/-- A clause comes to its wording around its value, where the value comes to a text. -/
theorem answer_clause (strings : List Value) (value : Value) :
    (evaluate env context (.fragment (.clause strings value))).answer = do
      let rendered ← (evaluate env context value).answer
      let inner ← rendered.toResult
      let result ← surround context strings inner
      return .result result := by
  rw [evaluate, resolve_clause, answer_bind, answer_enter, hcalls.allow rfl]
  simp only [answer_bind, Rendered.expect, answer_ofExcept, answer_pure]
  rfl

theorem answer_template (label : Label) (form : TemplateForm) (strings : List Value) {value : Value}
    (h : value.isPlain = true → ∃ s, value = .text s) :
    (evaluate env context (.fragment (.template label form strings [value]))).answer = do
      let rendered ← (evaluate env context value).answer
      let result ← compose strings [rendered.toResult] context
      return .result result := by
  have hone : promotedEach env context [value] = do
      let rendered ← promote env context value
      return [rendered] := by
    rw [promotedEach_cons, promotedEach]
    simp only [pure_bind]
  rw [evaluate, resolve, answer_bind, answer_enter, hcalls.allow rfl, hone,
    ← hcalls.answer_promote h]
  simp only [answer_bind, answer_ofExcept, answer_pure]
  cases (promote env context value).answer <;> rfl

end Context.Calls

/-! ## Literal parts around one value -/

theorem exists_dedentParts_pair (front back : String) : ∃ first last : String,
    dedentParts [.text front, .text back] = .ok [.text first, .text last] := by
  have hparts := dedentParts_text front [back]
  obtain ⟨first, last, hpair⟩ :=
    List.length_eq_two.1 (length_dedent ((front :: [back]).map String.toList))
  rw [hpair] at hparts
  exact ⟨_, _, hparts⟩

theorem compose_one_eq_ok (front back : String) {inner : Result} (h : inner.sql.IsText) :
    ∃ text, compose [.text front, .text back] [.ok inner] context =
      .ok (context.composed inner.bindings text) := by
  obtain ⟨sql, bindings, method, hooks⟩ := inner
  obtain ⟨s, rfl⟩ : sql.IsText := h
  obtain ⟨first, last, hparts⟩ := exists_dedentParts_pair front back
  refine ⟨strip (first ++ (s ++ last)), ?_⟩
  rw [compose, hparts]
  show Except.ok _ = Except.ok _
  simp [Context.composed, boundValues]

theorem compose_one_eq_error (front back : String) (cause : Failure) :
    compose [.text front, .text back] [.error cause] context = .error cause := by
  obtain ⟨first, last, hparts⟩ := exists_dedentParts_pair front back
  rw [compose, hparts]
  rfl

/-! ## Renders -/

section

variable {options : Options} {fields : Entries Setting} {value : Value}

/-- A clause is the template of its parts and its value, or nothing. Where the value comes to no
text, the clause has no text and binds what the value binds, and in every other case the two come to
the same: to a result around a text, and to a failure where the value fails or is no text. -/
theorem Options.render_clause_eq_template (env : Environment) (front back : String) (label : Label)
    (form : TemplateForm) (hvalue : value.isPlain = true → ∃ s, value = .text s)
    (hfields : options.fields = .ok fields)
    (hescape : ∀ setting, fields.get? (.text "escape") = some setting →
      setting.isTruthy = true → setting.toLiteralEscaper.isCallable = true)
    (hescapeId : ∀ setting, fields.get? (.text "escape_id") = some setting →
      setting.isTruthy = true → setting.toIdentifierEscaper.isCallable = true) :
    let clause : Value := .fragment (.clause [.text front, .text back] value)
    let template : Value := .fragment (.template label form [.text front, .text back] [value])
    (∀ inner : Result, options.render env value = .ok (.result inner) →
      (inner.sql.isTruthy = false →
        options.render env clause = .ok (.result { bindings := inner.bindings })) ∧
      (inner.sql.isTruthy = true → options.render env clause = options.render env template) ∧
      ∀ s, inner.sql = .text s → (inner.sql.isTruthy = true ↔ s ≠ "") ∧
        ∃ result, options.render env template = .ok (.result result) ∧
          result.bindings = inner.bindings) ∧
    (∀ other, options.render env value = .ok (.other other) →
      options.render env clause = .error .missingAttribute ∧
        options.render env template = .error .missingAttribute) ∧
    ∀ cause, options.render env value = .error cause →
      options.render env clause = .error cause ∧ options.render env template = .error cause := by
  intro clause template
  have hcalls : (Context.ofFields fields).Calls := {
    escape := holds_of_setting (Q := fun e : LiteralEscaper => e.isCallable = true) rfl hescape
    escapeId :=
      holds_of_setting (Q := fun e : IdentifierEscaper => e.isCallable = true) rfl hescapeId }
  simp only [render_of_fields hfields, clause, template, hcalls.answer_clause,
    hcalls.answer_template label form _ hvalue]
  refine ⟨fun inner hinner => ⟨fun hempty => ?_, fun htruthy => ?_, fun s hs => ⟨?_, ?_⟩⟩,
    fun other hother => ?_, fun cause hcause => ?_⟩
  · rw [hinner]
    show (surround _ _ inner).map Rendered.result = _
    rw [surround, if_neg (by simp [hempty])]
    rfl
  · rw [hinner]
    show (surround _ _ inner).map Rendered.result = (compose _ _ _).map Rendered.result
    rw [surround, if_pos htruthy]
    rfl
  · simp [hs, Value.isTruthy]
  · obtain ⟨text, htext⟩ := compose_one_eq_ok front back ⟨s, hs⟩
    refine ⟨(Context.ofFields fields).composed inner.bindings text, ?_, rfl⟩
    rw [hinner]
    show (compose _ [.ok inner] _).map Rendered.result = _
    rw [htext]
    rfl
  · rw [hother]
    refine ⟨rfl, ?_⟩
    show (compose _ [.error .missingAttribute] _).map Rendered.result = _
    rw [compose_one_eq_error]
    rfl
  · rw [hcause]
    exact ⟨rfl, rfl⟩

/-- A clause around a fragment without text that binds a value, under an escaper that is none. -/
theorem Options.render_clause_eq_template_silent :
    let fields : Entries Setting := [(.text "escape", .value .null)]
    let options : Options := .mapping 0 fields
    let value : Value := .fragment (.leaf 1 .silent (.text "") [.int 7] [])
    ((value.isPlain = true → ∃ s, value = .text s) ∧ options.fields = .ok fields ∧
      (∀ setting, fields.get? (.text "escape") = some setting → setting.isTruthy = true →
        setting.toLiteralEscaper.isCallable = true) ∧
      ∀ setting, fields.get? (.text "escape_id") = some setting → setting.isTruthy = true →
        setting.toIdentifierEscaper.isCallable = true) ∧
    options.render {} value = .ok (.result { bindings := [.int 7] }) ∧
    options.render {} (.fragment (.clause [.text "WHERE ", .text ""] value)) =
      .ok (.result { bindings := [.int 7] }) := by
  intro fields options value
  have hvalue : value.isPlain = true → ∃ s, value = .text s := fun h => by cases h
  have hescape : ∀ setting, fields.get? (.text "escape") = some setting →
      setting.isTruthy = true → setting.toLiteralEscaper.isCallable = true := by
    intro setting hget htruthy
    have hnull : fields.get? (.text "escape") = some (.value .null) := by cbv
    cases hnull.symm.trans hget
    cases htruthy
  have hescapeId : ∀ setting, fields.get? (.text "escape_id") = some setting →
      setting.isTruthy = true → setting.toIdentifierEscaper.isCallable = true := by
    intro setting hget _
    have hnone : fields.get? (.text "escape_id") = none := by cbv
    cases hnone.symm.trans hget
  have hinner : options.render {} value = .ok (.result { bindings := [.int 7] }) := by cbv
  exact ⟨⟨hvalue, rfl, hescape, hescapeId⟩, hinner,
    ((render_clause_eq_template {} "WHERE " "" 0 .statement hvalue rfl hescape hescapeId).1 _
      hinner).1 rfl⟩

end

end SqlFragments
