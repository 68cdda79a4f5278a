import Mathlib
import SqlFragments.Proofs.Render.Compose
import SqlFragments.Proofs.Render.Leaf
import SqlFragments.Proofs.Render.Options
import SqlFragments.Proofs.Render.Steps

/-!
# Bindings

A render binds what the leaves of the tree contribute, from left to right. Text that is left out,
an empty line or a clause without text, takes no binding with it.
-/

namespace SqlFragments

open Outcome

variable {env : Environment} {context : Context}

def Rendered.bindings : Rendered → List Value
  | result r => r.bindings
  | other _ => []

def contributions (context : Context) (leaves : List Leaf) : List Value :=
  leaves.flatMap (Leaf.bindings context)

@[simp]
theorem contributions_nil : contributions context [] = [] := rfl

@[simp]
theorem contributions_append (front back : List Leaf) :
    contributions context (front ++ back) =
      contributions context front ++ contributions context back :=
  List.flatMap_append

theorem contributions_bound (values : List Value) :
    contributions context (values.map .bound) = if context.withParameters then values else [] := by
  induction values with
  | nil => simp
  | cons value rest ih =>
    rw [List.map_cons, ← List.singleton_append, contributions_append, ih]
    by_cases h : context.withParameters <;> simp [contributions, Leaf.bindings, h]

theorem contributions_name (names : List Value) :
    contributions context (names.map .name) = [] := by
  simp [contributions, Leaf.bindings, List.flatMap_map]

private theorem bindings_of_bind {value : Value} {json : Unit → Outcome Json} {result : Result}
    (h : (context.bind env value json).answer = .ok result) :
    result.bindings = if context.withParameters then [value] else [] := by
  unfold Context.bind at h
  split at h
  · next hparam =>
    cases h
    rw [if_pos hparam]
  · next hparam =>
    obtain ⟨sql, _, hr⟩ := answer_bind_eq_ok.1 h
    cases hr
    rw [if_neg hparam]

private theorem bindings_of_parameter {value : Value} {json : Unit → Outcome Json}
    {result : Result} (h : (context.parameter env value json).answer = .ok result) :
    result.bindings = if context.withParameters then [value] else [] := by
  obtain ⟨_, _, hr⟩ := answer_bind_eq_ok.1 h
  exact bindings_of_bind hr

private theorem bindings_of_compose {strings : List Value}
    {results : List (Except Failure Result)} {result : Result}
    (h : compose strings results context = .ok result) :
    result.bindings = boundValues results := by
  obtain ⟨_, _, rfl⟩ := compose_eq_ok.1 h
  rfl

private theorem bindings_of_expect {rendered : Rendered} {result : Result}
    (h : rendered.expect.answer = .ok result) : result.bindings = rendered.bindings := by
  rw [Rendered.expect_eq_ok.1 h]
  rfl

private theorem bindings_of_renderList {separator : Value} {values : List Value} {result : Result}
    (h : (renderList env context separator values).answer = .ok result) :
    result.bindings = if context.withParameters then values else [] := by
  unfold renderList at h
  split at h
  · next hparam =>
    obtain ⟨_, _, h⟩ := answer_bind_eq_ok.1 h
    cases h
    rw [if_pos hparam]
  · next hparam =>
    obtain ⟨_, _, h⟩ := answer_bind_eq_ok.1 h
    obtain ⟨_, _, h⟩ := answer_bind_eq_ok.1 h
    obtain ⟨_, _, h⟩ := answer_bind_eq_ok.1 h
    cases h
    rw [if_neg hparam]

private theorem bindings_of_surround {strings : List Value} {inner result : Result}
    (h : surround context strings inner = .ok result) : result.bindings = inner.bindings := by
  unfold surround at h
  split at h
  · rw [bindings_of_compose h]
    simp [boundValues]
  · cases h
    rfl

private theorem boundValues_cons (rendered : Rendered) (rest : List (Except Failure Result)) :
    boundValues (rendered.toResult :: rest) = rendered.bindings ++ boundValues rest := by
  cases rendered <;> rfl

mutual

theorem bindings_of_resolve {depth : Nat} {rendered : Rendered} (f : Fragment)
    (h : (resolve env context depth f).answer = .ok rendered) :
    rendered.bindings = contributions context f.leaves := by
  match f with
  | .raw value =>
    rw [resolve_raw] at h
    obtain ⟨_, _, h⟩ := answer_bind_eq_ok.1 h
    obtain ⟨_, _, h⟩ := answer_bind_eq_ok.1 h
    cases h
    rfl
  | .identifier name =>
    rw [resolve] at h
    obtain ⟨_, _, h⟩ := answer_bind_eq_ok.1 h
    obtain ⟨_, _, h⟩ := answer_bind_eq_ok.1 h
    cases h
    rfl
  | .parameter value =>
    rw [resolve] at h
    obtain ⟨_, hr, h⟩ := answer_bind_eq_ok.1 h
    cases h
    rw [Fragment.leaves, ← List.map_singleton, contributions_bound]
    exact bindings_of_parameter hr
  | .parameterList values separator =>
    rw [resolve_parameterList] at h
    obtain ⟨_, _, h⟩ := answer_bind_eq_ok.1 h
    obtain ⟨_, hr, h⟩ := answer_bind_eq_ok.1 h
    cases h
    rw [Fragment.leaves, contributions_bound]
    exact bindings_of_renderList hr
  | .columnList columns separator =>
    rw [resolve] at h
    obtain ⟨_, _, h⟩ := answer_bind_eq_ok.1 h
    obtain ⟨_, _, h⟩ := answer_bind_eq_ok.1 h
    obtain ⟨_, _, h⟩ := answer_bind_eq_ok.1 h
    obtain ⟨_, _, h⟩ := answer_bind_eq_ok.1 h
    cases h
    rw [Fragment.leaves, contributions_name]
    rfl
  | .lines members separator =>
    rw [resolve] at h
    obtain ⟨_, _, h⟩ := answer_bind_eq_ok.1 h
    obtain ⟨result, hr, h⟩ := answer_bind_eq_ok.1 h
    cases h
    exact bindings_of_linesFrom members hr
  | .clause strings value =>
    rw [resolve_clause] at h
    obtain ⟨_, _, h⟩ := answer_bind_eq_ok.1 h
    obtain ⟨rendered, hv, h⟩ := answer_bind_eq_ok.1 h
    obtain ⟨inner, hi, h⟩ := answer_bind_eq_ok.1 h
    obtain ⟨result, hs, h⟩ := answer_bind_eq_ok.1 h
    cases h
    rw [Fragment.leaves, ← bindings_of_evaluate value hv, ← bindings_of_expect hi]
    exact bindings_of_surround hs
  | .template label form strings values =>
    rw [resolve] at h
    obtain ⟨_, _, h⟩ := answer_bind_eq_ok.1 h
    obtain ⟨rendered, hr, h⟩ := answer_bind_eq_ok.1 h
    obtain ⟨result, hc, h⟩ := answer_bind_eq_ok.1 h
    cases h
    rw [Rendered.bindings, bindings_of_compose hc]
    exact bindings_of_promotedEach values hr
  | .leaf label form text bindings assigned =>
    rw [resolve_leaf] at h
    obtain ⟨_, _, h⟩ := answer_bind_eq_ok.1 h
    obtain ⟨_, _, h⟩ := answer_bind_eq_ok.1 h
    obtain ⟨_, _, h⟩ := answer_bind_eq_ok.1 h
    cases h
    simp [contributions, Fragment.leaves, Leaf.bindings, Fragment.ownBindings, Rendered.bindings]
  | .probe label assigned =>
    rw [resolve] at h
    obtain ⟨_, _, h⟩ := answer_bind_eq_ok.1 h
    cases h
    rfl
  | .deferred label (.fragment f) assigned =>
    rw [resolve_deferred] at h
    obtain ⟨_, _, h⟩ := answer_bind_eq_ok.1 h
    rw [follow] at h
    split at h
    · cases h
    · exact bindings_of_resolve f h
  | .deferred _ .null _ | .deferred _ (.bool _) _ | .deferred _ (.int _) _
  | .deferred _ (.float _ _) _ | .deferred _ (.decimal _ _) _ | .deferred _ (.text _) _
  | .deferred _ (.dateTime _) _ | .deferred _ (.date _) _ | .deferred _ (.bytes _ _) _
  | .deferred _ (.list _ _) _ | .deferred _ (.tuple _) _ | .deferred _ (.dict _ _) _
  | .deferred _ (.object _ _) _ | .deferred _ (.function _) _ =>
    obtain ⟨_, _, h⟩ := answer_bind_eq_ok.1 h
    cases h
    rfl
  | .endless label assigned =>
    rw [resolve] at h
    obtain ⟨_, _, h⟩ := answer_bind_eq_ok.1 h
    cases h
  | .unrenderable label kind assigned =>
    rw [resolve] at h
    obtain ⟨_, _, h⟩ := answer_bind_eq_ok.1 h
    cases h
    rfl
termination_by structural f

/-- Rendering a thing binds what its leaves contribute. -/
theorem bindings_of_evaluate {rendered : Rendered} (target : Value)
    (h : (evaluate env context target).answer = .ok rendered) :
    rendered.bindings = contributions context target.leaves := by
  match target with
  | .null =>
    cases h
    rfl
  | .text s =>
    rw [evaluate] at h
    rw [Value.leaves, ← List.map_singleton, contributions_bound]
    split at h
    · next hparam =>
      cases h
      rw [if_pos hparam]
      rfl
    · split at h
      · obtain ⟨result, hr, h⟩ := answer_bind_eq_ok.1 h
        cases h
        exact bindings_of_bind hr
      · cases h
  | .fragment f =>
    rw [evaluate] at h
    exact bindings_of_resolve f h
  | .bool _ | .int _ | .float _ _ | .decimal _ _ | .dateTime _ | .date _ | .bytes _ _ | .list _ _
  | .tuple _ | .dict _ _ | .object _ _ | .function _ => cases h
termination_by structural target

theorem bindings_of_promotedEach {rendered : List Rendered} (values : List Value)
    (h : (promotedEach env context values).answer = .ok rendered) :
    boundValues (rendered.map Rendered.toResult) =
      contributions context (Value.promotedLeaves values) := by
  match values with
  | [] =>
    cases h
    rfl
  | value :: rest =>
    rw [promotedEach_cons] at h
    obtain ⟨first, hf, h⟩ := answer_bind_eq_ok.1 h
    obtain ⟨others, ho, h⟩ := answer_bind_eq_ok.1 h
    cases h
    rw [List.map_cons, boundValues_cons, bindings_of_promotedEach rest ho, Value.promotedLeaves,
      contributions_append]
    congr 1
    unfold promote at hf
    split at hf
    · next hplain =>
      obtain ⟨_, hr, hf⟩ := answer_bind_eq_ok.1 hf
      cases hf
      rw [if_pos hplain, ← List.map_singleton, contributions_bound]
      exact bindings_of_parameter hr
    · next hplain =>
      rw [if_neg hplain]
      exact bindings_of_evaluate value hf
termination_by structural values

theorem bindings_of_linesFrom {separator sql : Value} {bindings : List Value} {result : Result}
    (members : List Value)
    (h : (linesFrom env context separator sql bindings members).answer = .ok result) :
    result.bindings = bindings ++ contributions context (Value.leavesEach members) := by
  match members with
  | [] =>
    cases h
    rw [Value.leavesEach, contributions_nil, List.append_nil]
  | member :: rest =>
    rw [linesFrom_cons] at h
    obtain ⟨rendered, hm, h⟩ := answer_bind_eq_ok.1 h
    obtain ⟨inner, hi, h⟩ := answer_bind_eq_ok.1 h
    obtain ⟨_, _, h⟩ := answer_bind_eq_ok.1 h
    rw [bindings_of_linesFrom rest h, bindings_of_expect hi, bindings_of_evaluate member hm,
      Value.leavesEach, contributions_append, List.append_assoc]
termination_by structural members

end

/-- A result binds exactly what the leaves of the tree contribute under the options, in order. -/
theorem Options.bindings_of_render {options : Options} {target : Value} {result : Result}
    (h : options.render env target = .ok (.result result)) :
    ∃ context, options.normalize = .ok context ∧
      result.bindings = target.leaves.flatMap (Leaf.bindings context) := by
  cases hcontext : options.normalize with
  | error cause =>
    rw [render, hcontext] at h
    cases h
  | ok context =>
    rw [render, hcontext] at h
    exact ⟨context, rfl, bindings_of_evaluate target h⟩

/-- A silent leaf in a clause and one among lines leave no text but what they bind. -/
theorem Options.bindings_of_render_silent :
    ∃ context, Options.absent.normalize = .ok context ∧
      [Value.int 1, .text "a", .int 2] = (Value.leaves (.fragment (.lines
        [.fragment (.clause [.text "WHERE ", .text ""]
          (.fragment (.leaf 0 .silent (.text "") [.int 1] []))), .text "a",
          .fragment (.leaf 1 .silent (.text "") [.int 2] [])] (.text ", ")))).flatMap
        (Leaf.bindings context) := by
  have h : Options.absent.render {} (.fragment (.lines
      [.fragment (.clause [.text "WHERE ", .text ""]
        (.fragment (.leaf 0 .silent (.text "") [.int 1] []))), .text "a",
        .fragment (.leaf 1 .silent (.text "") [.int 2] [])] (.text ", "))) = .ok (.result
      { sql := .text ", ?, ", bindings := [.int 1, .text "a", .int 2] }) := by cbv
  exact bindings_of_render h

end SqlFragments
