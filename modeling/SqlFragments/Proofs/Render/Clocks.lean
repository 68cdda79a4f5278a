import SqlFragments.Proofs.Render.Nodes

/-!
# Renders under time zones

Of the time zone, a tree of the library only depends on how far its clocks are ahead of universal
time: two zones whose clocks agree give one result.
-/

namespace SqlFragments

open Outcome

variable {env : Environment} {context : Context} {timezone : Value}

theorem Literal.scalar?_congr {hostMinutes : Rat} {timezone timezone' : Value}
    (h : (Literal.zoneOf timezone).microseconds hostMinutes =
      (Literal.zoneOf timezone').microseconds hostMinutes) (value : Value) :
    Literal.scalar? hostMinutes timezone value = Literal.scalar? hostMinutes timezone' value := by
  cases value with
  | dateTime moment => simp only [Literal.scalar?, Literal.dateTimeText, h]
  | date day => simp only [Literal.scalar?, Literal.dateText, h]
  | _ => rfl

section

variable {evaluate evaluate' : Value → Outcome Rendered}

private theorem matching_valuesBy {values : List Value}
    (h : ∀ value ∈ values.map Value.promoted, Matching Eq (evaluate value) (evaluate' value)) :
    Matching Eq (valuesBy evaluate values) (valuesBy evaluate' values) := by
  induction values with
  | nil => exact .pure rfl
  | cons value rest ih =>
    rw [List.map_cons, List.forall_mem_cons] at h
    apply Matching.bind h.1
    rintro rendered _ rfl
    apply Matching.bind (ih h.2)
    rintro others _ rfl
    exact .pure rfl

private theorem matching_linesBy {members : List Value}
    (h : ∀ member ∈ members, Matching Eq (evaluate member) (evaluate' member))
    (separator sql : Value) (bindings : List Value) :
    Matching Eq (linesBy id evaluate separator sql bindings members)
      (linesBy id evaluate' separator sql bindings members) := by
  induction members generalizing sql bindings with
  | nil => exact .pure rfl
  | cons member rest ih =>
    rw [List.forall_mem_cons] at h
    apply Matching.bind h.1
    rintro rendered _ rfl
    apply Matching.bind (.of_answer_eq rfl)
    rintro result _ rfl
    apply Matching.bind (.of_answer_eq rfl)
    rintro extended _ rfl
    exact ih h.2 _ _

end

section

variable (hescape : context.escape = .standard)
  (hahead : (Literal.zoneOf timezone).microseconds env.hostMinutes =
    (Literal.zoneOf context.timezone).microseconds env.hostMinutes)

include hescape hahead

private theorem write_timezone (value : Value) (json : Unit → Outcome Json) :
    context.escape.write env value timezone json =
      context.escape.write env value context.timezone json := by
  rw [hescape]
  simp only [LiteralEscaper.write, Literal.scalar?_congr hahead value]

private theorem bind_timezone (value : Value) (json : Unit → Outcome Json) :
    ({ context with timezone := timezone } : Context).bind env value json =
      context.bind env value json := by
  simp only [Context.bind, write_timezone hescape hahead]

private theorem renderList_timezone (separator : Value) (values : List Value) :
    renderList env { context with timezone := timezone } separator values =
      renderList env context separator values := by
  have hpieces : literalEach env { context with timezone := timezone } values =
      literalEach env context values := by
    rw [literalEach_eq_mapM, literalEach_eq_mapM]
    simp only [write_timezone hescape hahead]
  simp only [renderList, hpieces]

private theorem matching_renderBy {f : Fragment} (hmade : f.assignable? = none)
    (h : ∀ part ∈ f.parts, Matching Eq (evaluate env { context with timezone := timezone } part)
      (evaluate env context part)) :
    Matching Eq
      (f.renderBy id (evaluate env { context with timezone := timezone }) env
        { context with timezone := timezone })
      (f.renderBy id (evaluate env context) env context) := by
  cases f with
  | raw value => exact .of_answer_eq rfl
  | identifier name => exact .of_answer_eq rfl
  | parameter value =>
    apply Matching.of_answer_eq
    simp only [Fragment.renderBy, bind_timezone hescape hahead]
  | parameterList values separator =>
    apply Matching.of_answer_eq
    simp only [Fragment.renderBy, renderList_timezone hescape hahead]
  | columnList columns separator => exact .of_answer_eq rfl
  | lines members separator =>
    apply Matching.bind (matching_linesBy h separator (.text "") [])
    rintro result _ rfl
    exact .pure rfl
  | clause strings value =>
    apply Matching.bind (h value List.mem_cons_self)
    rintro rendered _ rfl
    exact .of_answer_eq rfl
  | template label form strings values =>
    apply Matching.bind (matching_valuesBy h)
    rintro rendered _ rfl
    exact .of_answer_eq rfl
  | _ => cases hmade

theorem answer_evaluate_timezone {target : Value} (hlibrary : target.IsLibrary) :
    (evaluate env { context with timezone := timezone } target).answer =
      (evaluate env context target).answer := by
  apply Matching.answer_eq
  induction target using Value.parts_induction with
  | fragment f ih =>
    have hmade := hlibrary f (Value.mem_occurrences_self _)
    have hnext := Fragment.next_of_assignable hmade
    have hallow : ({ context with timezone := timezone } : Context).allow f = context.allow f := rfl
    rw [evaluate, evaluate, resolve_of_next_none hnext, resolve_of_next_none hnext]
    apply Matching.bind (matching_enter hallow)
    intro _ _ _
    apply matching_renderBy hescape hahead hmade
    exact fun part hpart => ih part hpart (hlibrary.part part hpart)
  | other value hne =>
    apply Matching.of_answer_eq
    cases value with
    | fragment f => exact absurd rfl (hne f)
    | text s => simp only [evaluate, bind_timezone hescape hahead]
    | _ => rfl

end

end SqlFragments
