import SqlFragments.Proofs.Render.Chain
import SqlFragments.Proofs.Render.Once

/-!
# Nodes of a tree

All that is evaluated for a thing is a node of it. What a fragment hands on to its parts comes to
every node, and a tree of the library that comes to a result has results at all of its nodes.
-/

namespace SqlFragments

open Outcome

variable {env : Environment} {context : Context} {target inner : Value}

namespace Value

theorem mem_occurrences_self (target : Value) : target ∈ target.occurrences := by
  cases target <;> simp [occurrences]

theorem occurrences_fragment (f : Fragment) :
    (fragment f).occurrences = fragment f :: f.parts.flatMap occurrences := by
  rw [occurrences, f.contents_eq]

theorem mem_occurrences_of_part {f : Fragment} {part : Value} (h : part ∈ f.parts) :
    part ∈ (fragment f).occurrences := by
  rw [occurrences_fragment]
  exact List.mem_cons_of_mem _ (List.mem_flatMap.2 ⟨part, h, part.mem_occurrences_self⟩)

/-- What a fragment hands on to its parts comes to every node. -/
theorem forall_occurrences {P : Value → Prop}
    (hpart : ∀ f, P (.fragment f) → ∀ part ∈ f.parts, P part) (h : P target) :
    ∀ node ∈ target.occurrences, P node := by
  induction target using Value.parts_induction with
  | fragment f ih =>
    rw [occurrences_fragment, List.forall_mem_cons]
    refine ⟨h, ?_⟩
    intro node hnode
    obtain ⟨part, hmem, hnode⟩ := List.mem_flatMap.1 hnode
    exact ih part hmem (hpart f h part hmem) node hnode
  | other value hne =>
    intro node hnode
    have hself : value.occurrences = [value] := by
      cases value with
      | fragment f => exact absurd rfl (hne f)
      | _ => rfl
    rw [hself, List.mem_singleton] at hnode
    rwa [hnode]

theorem occurrences_subset (h : inner ∈ target.occurrences) :
    inner.occurrences ⊆ target.occurrences := by
  let P (node : Value) : Prop := node.occurrences ⊆ target.occurrences
  have hself : P target := List.Subset.refl _
  refine forall_occurrences ?_ hself inner h
  intro f hf part hpart
  refine List.Subset.trans ?_ hf
  rw [occurrences_fragment]
  exact fun _ hnode => List.mem_cons_of_mem _ (List.mem_flatMap.2 ⟨part, hpart, hnode⟩)

end Value

theorem Fragment.leaves_part {f : Fragment} : ∀ part ∈ f.parts, part.leaves ⊆ f.leaves := by
  intro part hpart leaf hleaf
  rw [Fragment.leaves_eq]
  exact List.mem_append_right _ (List.mem_flatMap.2 ⟨part, hpart, hleaf⟩)

theorem Value.leaves_subset (h : inner ∈ target.occurrences) : inner.leaves ⊆ target.leaves := by
  let P (node : Value) : Prop := node.leaves ⊆ target.leaves
  have hself : P target := List.Subset.refl _
  refine forall_occurrences ?_ hself inner h
  intro f hf part hpart
  exact List.Subset.trans (Fragment.leaves_part part hpart) hf

theorem Value.exists_node_of_bound {value : Value} (h : .bound value ∈ target.leaves) :
    (∃ f, .fragment f ∈ target.occurrences ∧ .bound value ∈ f.ownLeaves) ∨
      ∃ s, value = .text s ∧ .text s ∈ target.occurrences := by
  induction target using Value.parts_induction with
  | fragment f ih =>
    rw [Value.leaves, Fragment.leaves_eq, List.mem_append, List.mem_flatMap] at h
    rcases h with hown | ⟨part, hpart, hleaf⟩
    · exact .inl ⟨f, mem_occurrences_self _, hown⟩
    · have hsubset := occurrences_subset (mem_occurrences_of_part hpart)
      rcases ih part hpart hleaf with ⟨g, hg, hown⟩ | ⟨s, hs, hnode⟩
      · exact .inl ⟨g, hsubset hg, hown⟩
      · exact .inr ⟨s, hs, hsubset hnode⟩
  | other value' hne =>
    cases value' with
    | fragment f => exact absurd rfl (hne f)
    | text s =>
      cases List.mem_singleton.1 h
      exact .inr ⟨s, rfl, mem_occurrences_self _⟩
    | null =>
      rw [Value.leaves, List.mem_singleton] at h
      cases h
    | _ => cases h

/-! ## Trees of the library -/

/-- Whether all fragments of a tree are made by the library. -/
def Value.IsLibrary (target : Value) : Prop :=
  ∀ f, .fragment f ∈ target.occurrences → f.assignable? = none

instance (target : Value) : Decidable target.IsLibrary :=
  decidable_of_iff ((target.occurrences.filterMap Value.fragment?).all (·.assignable?.isNone)) (by
    simp only [List.all_eq_true, List.mem_filterMap, Option.isNone_iff_eq_none, Value.IsLibrary]
    constructor
    · exact fun h f hf => h f ⟨.fragment f, hf, rfl⟩
    · rintro h f ⟨value, hvalue, hf⟩
      cases value with
      | fragment g =>
        cases hf
        exact h f hvalue
      | _ => cases hf)

theorem Value.IsLibrary.node (h : target.IsLibrary) (hinner : inner ∈ target.occurrences) :
    inner.IsLibrary :=
  fun f hf => h f (occurrences_subset hinner hf)

theorem Value.IsLibrary.part {f : Fragment} (h : (Value.fragment f).IsLibrary) :
    ∀ part ∈ f.parts, part.IsLibrary :=
  fun _ hpart => Value.IsLibrary.node h (mem_occurrences_of_part hpart)

theorem Fragment.next_of_assignable {f : Fragment} (h : f.assignable? = none) :
    f.next? = none := by
  cases f with
  | deferred | endless => cases h
  | _ => rfl

theorem evaluate_of_assignable {f : Fragment} (h : f.assignable? = none) {rendered : Rendered} :
    (evaluate env context (.fragment f)).answer = .ok rendered ↔
      context.allow f = .ok () ∧
        (f.renderBy id (evaluate env context) env context).answer = .ok rendered := by
  rw [evaluate, resolve_of_next_none (Fragment.next_of_assignable h), answer_bind_eq_ok,
    answer_enter]
  constructor
  · rintro ⟨_, hallow, hok⟩
    exact ⟨hallow, hok⟩
  · rintro ⟨hallow, hok⟩
    exact ⟨(), hallow, hok⟩

theorem evaluate_text (s : String) :
    evaluate env context (.text s) =
      if context.withParameters = true ∨ context.escape.isCallable = true then do
        let result ← context.bind env (.text s) fun _ => json env (.text s)
        pure (.result result)
      else .fail .literalEscaperExpected := by
  have hjson : (fun _ : Unit => json env (.text s)) = fun _ => pure (.text s) := by
    funext _
    rw [json]
  rw [hjson, evaluate]
  by_cases hparam : context.withParameters = true
  · rw [if_pos hparam, if_pos (.inl hparam), Context.bind, if_pos hparam]
    rfl
  · simp [hparam]

theorem result_of_evaluate (h : target.IsLibrary) {rendered : Rendered}
    (hok : (evaluate env context target).answer = .ok rendered) :
    ∃ result, rendered = .result result := by
  cases rendered with
  | result result => exact ⟨result, rfl⟩
  | other value =>
    cases target with
    | fragment f =>
      have hmade := h f (Value.mem_occurrences_self _)
      obtain ⟨-, hok⟩ := (evaluate_of_assignable hmade).1 hok
      rcases eq_of_renderBy_other hok with ⟨label, assigned, rfl⟩ | ⟨label, assigned, rfl, -⟩ <;>
        cases hmade
    | null => cases hok
    | text s =>
      rw [evaluate_text] at hok
      split at hok
      · obtain ⟨result, _, hok⟩ := answer_bind_eq_ok.1 hok
        cases hok
      · cases hok
    | _ => cases hok

private theorem evaluate_of_linesBy {members : List Value} {separator sql : Value}
    {bindings : List Value} {result : Result}
    (hok : (linesBy id (evaluate env context) separator sql bindings members).answer =
      .ok result) :
    ∀ member ∈ members, ∃ r, (evaluate env context member).answer = .ok r := by
  induction members generalizing sql bindings with
  | nil => exact fun _ hmember => by cases hmember
  | cons member rest ih =>
    obtain ⟨r, hr, hok⟩ := answer_bind_eq_ok.1 hok
    obtain ⟨_, _, hok⟩ := answer_bind_eq_ok.1 hok
    obtain ⟨_, _, hok⟩ := answer_bind_eq_ok.1 hok
    rw [List.forall_mem_cons]
    exact ⟨⟨r, hr⟩, ih hok⟩

theorem evaluate_part {f : Fragment} {rendered : Rendered}
    (hok : (f.renderBy id (evaluate env context) env context).answer = .ok rendered) :
    ∀ part ∈ f.parts, ∃ r, (evaluate env context part).answer = .ok r := by
  cases f with
  | lines members separator =>
    obtain ⟨_, hlines, _⟩ := answer_bind_eq_ok.1 hok
    exact evaluate_of_linesBy hlines
  | clause strings value =>
    obtain ⟨r, hr, _⟩ := answer_bind_eq_ok.1 hok
    intro part hpart
    rw [List.mem_singleton.1 hpart]
    exact ⟨r, hr⟩
  | template label form strings values =>
    obtain ⟨_, hvalues, _⟩ := answer_bind_eq_ok.1 hok
    rw [valuesBy_eq_mapM, answer_mapM_eq_ok] at hvalues
    intro part hpart
    obtain ⟨r, -, hr⟩ := exists_of_forall₂ hvalues part hpart
    exact ⟨r, hr⟩
  | _ => exact fun _ hpart => by cases hpart

/-- Where a tree of the library comes to a result, so do all of its nodes. -/
theorem evaluate_node (h : target.IsLibrary) {rendered : Rendered}
    (hok : (evaluate env context target).answer = .ok rendered) :
    ∀ node ∈ target.occurrences, ∃ result, (evaluate env context node).answer =
      .ok (.result result) := by
  have hnodes : ∀ node ∈ target.occurrences, node.IsLibrary ∧
      ∃ r, (evaluate env context node).answer = .ok r := by
    refine Value.forall_occurrences ?_ ⟨h, rendered, hok⟩
    rintro f ⟨hmade, r, hr⟩ part hpart
    obtain ⟨-, hrender⟩ := (evaluate_of_assignable (hmade f (Value.mem_occurrences_self _))).1 hr
    exact ⟨hmade.part part hpart, evaluate_part hrender part hpart⟩
  intro node hnode
  obtain ⟨hmade, r, hr⟩ := hnodes node hnode
  obtain ⟨result, rfl⟩ := result_of_evaluate hmade hr
  exact ⟨result, hr⟩

end SqlFragments
