import Mathlib
import SqlFragments.Proofs.Render.Bindings
import SqlFragments.Proofs.Render.Marked

/-!
# Evaluated once

Every fragment of a tree is rendered once. What it calls is what its leaves are, from left to right:
names are written in both modes, values only as literals, and then they are the values that are
bound otherwise.
-/

namespace SqlFragments

open Outcome

variable {env : Environment} {context : Context}

/-! ## Visits of a tree -/

def Value.fragment? : Value → Option Fragment
  | fragment f => some f
  | _ => none

theorem Fragment.contents_eq (f : Fragment) : f.contents = f.parts.flatMap Value.occurrences := by
  cases f with
  | lines members separator => exact eq_flatMap_of_cons rfl (fun _ _ => rfl) members
  | clause strings value => exact (List.flatMap_singleton _ _).symm
  | template label form strings values =>
    rw [Fragment.parts, List.flatMap_map]
    apply eq_flatMap_of_cons rfl
    intro value rest
    rw [Value.promotedOccurrences, Value.promoted]
    split <;> rfl
  | _ => rfl

def Walk.rendered {α : Type} (w : Walk α) : List Fragment := w.visits.map Visit.fragment

private structure Walk.Renders {α : Type} (w : Walk α) (outcome : Outcome α)
    (fragments : List Fragment) : Prop where
  outcome? : w.outcome? = some outcome
  rendered {a : α} (h : outcome.answer = .ok a) : w.rendered = fragments

namespace Walk.Renders

variable {α β : Type}

theorem ofOutcome (outcome : Outcome α) : (Walk.ofOutcome outcome).Renders outcome [] where
  outcome? := rfl
  rendered _ := rfl

protected theorem bind {first : Walk α} {next : α → Walk β} {outcome : Outcome α}
    {later : α → Outcome β} {front back : List Fragment} (hfirst : first.Renders outcome front)
    (hnext : ∀ a, (next a).Renders (later a) back) :
    (first >>= next).Renders (outcome >>= later) (front ++ back) where
  outcome? := Walk.outcome?_bind hfirst.outcome? fun a _ => (hnext a).outcome?
  rendered {b} h := by
    obtain ⟨a, ha, hb⟩ := answer_bind_eq_ok.1 h
    rw [Walk.rendered, visits_bind_ok hfirst.outcome? ha, List.map_append]
    exact congrArg₂ _ (hfirst.rendered ha) ((hnext a).rendered hb)

theorem ofOutcome_bind {next : α → Walk β} {outcome : Outcome α} {later : α → Outcome β}
    {fragments : List Fragment} (hnext : ∀ a, (next a).Renders (later a) fragments) :
    (Walk.ofOutcome outcome >>= next).Renders (outcome >>= later) fragments :=
  (ofOutcome outcome).bind hnext

theorem bind_nothing {first : Walk α} {next : α → Walk β} {outcome : Outcome α}
    {later : α → Outcome β} {fragments : List Fragment} (hfirst : first.Renders outcome fragments)
    (hnext : ∀ a, (next a).Renders (later a) []) :
    (first >>= next).Renders (outcome >>= later) fragments := by
  have h := hfirst.bind hnext
  rwa [List.append_nil] at h

end Walk.Renders

section

variable {evaluate' : Value → Walk Rendered}

private theorem renders_valuesBy {values : List Value}
    (h : ∀ value ∈ values.map Value.promoted, (evaluate' value).Renders
      (evaluate env context value) (value.occurrences.filterMap Value.fragment?)) :
    (valuesBy evaluate' values).Renders (valuesBy (evaluate env context) values)
      (((values.map Value.promoted).flatMap Value.occurrences).filterMap Value.fragment?) := by
  induction values with
  | nil => exact .ofOutcome _
  | cons value rest ih =>
    rw [List.map_cons, List.forall_mem_cons] at h
    rw [List.map_cons, List.flatMap_cons, List.filterMap_append]
    apply h.1.bind
    intro rendered
    exact (ih h.2).bind_nothing fun others => .ofOutcome _

private theorem renders_linesBy {members : List Value}
    (h : ∀ member ∈ members, (evaluate' member).Renders (evaluate env context member)
      (member.occurrences.filterMap Value.fragment?)) (separator sql : Value)
    (bindings : List Value) :
    (linesBy Walk.ofOutcome evaluate' separator sql bindings members).Renders
      (linesBy id (evaluate env context) separator sql bindings members)
      ((members.flatMap Value.occurrences).filterMap Value.fragment?) := by
  induction members generalizing sql bindings with
  | nil => exact .ofOutcome _
  | cons member rest ih =>
    rw [List.forall_mem_cons] at h
    rw [List.flatMap_cons, List.filterMap_append]
    apply h.1.bind
    intro rendered
    apply Walk.Renders.ofOutcome_bind
    intro result
    apply Walk.Renders.ofOutcome_bind
    intro extended
    exact ih h.2 _ _

private theorem renders_renderBy {f : Fragment}
    (h : ∀ value ∈ f.parts, (evaluate' value).Renders (evaluate env context value)
      (value.occurrences.filterMap Value.fragment?)) :
    (f.renderBy Walk.ofOutcome evaluate' env context).Renders
      (f.renderBy id (evaluate env context) env context)
      (f.contents.filterMap Value.fragment?) := by
  rw [Fragment.contents_eq]
  cases f with
  | lines members separator =>
    exact (renders_linesBy h separator (.text "") []).bind_nothing fun result => .ofOutcome _
  | clause strings value =>
    have hvalue := h value List.mem_cons_self
    rw [Fragment.parts, List.flatMap_singleton]
    apply hvalue.bind_nothing
    intro rendered
    apply Walk.Renders.ofOutcome_bind
    intro inner
    exact .ofOutcome_bind fun result => .ofOutcome _
  | template label form strings values =>
    apply (renders_valuesBy h).bind_nothing
    intro rendered
    exact .ofOutcome_bind fun result => .ofOutcome _
  | _ => exact .ofOutcome _

end

private theorem renders_walk {options : Options} (hcontext : options.normalize = .ok context)
    {levels : Nat} {target : Value} (hcounted : target.isCounted = true)
    (hlevels : target.levels ≤ levels) :
    (walk env levels options 0 target).Renders (evaluate env context target)
      (target.occurrences.filterMap Value.fragment?) := by
  induction levels generalizing options target with
  | zero => exact absurd hlevels (Nat.not_le_of_lt target.one_le_levels)
  | succ levels ih =>
    rcases target.fragment_or_ne with ⟨f, rfl⟩ | hne
    · have hnext := next_of_isCounted hcounted
      rw [walk_of_next_none hcontext hnext, evaluate, resolve_of_next_none hnext]
      apply Walk.Renders.ofOutcome_bind
      intro _
      have hparts := renders_renderBy (f := f) fun value hvalue =>
        ih (Options.normalize_toSettings hcontext) (isCounted_part hcounted value hvalue)
          (Fragment.levels_part hlevels value hvalue)
      refine ⟨?_, fun hok => ?_⟩
      · rw [Walk.outcome?_visit_bind]
        exact hparts.outcome?
      · exact congrArg (f :: ·) (hparts.rendered hok)
    · rw [walk_of_ne_fragment hcontext hne]
      have hoccurrences : target.occurrences.filterMap Value.fragment? = [] := by
        cases target with
        | fragment f => exact absurd rfl (hne f)
        | _ => rfl
      rw [hoccurrences]
      exact .ofOutcome _

/-! ## Leaves of a tree -/

def Fragment.ownLeaves : Fragment → List Leaf
  | .raw value => [.verbatim value]
  | .identifier name => [.name (.text name)]
  | .parameter value => [.bound value]
  | .parameterList values _ => values.map .bound
  | .columnList columns _ => columns.map .name
  | .lines _ _ | .clause _ _ | .template _ _ _ _ => []
  | f => f.leaves

theorem Fragment.leaves_eq (f : Fragment) :
    f.leaves = f.ownLeaves ++ f.parts.flatMap Value.leaves := by
  cases f with
  | lines members separator => exact eq_flatMap_of_cons rfl (fun _ _ => rfl) members
  | clause strings value => exact (List.flatMap_singleton _ _).symm
  | template label form strings values =>
    rw [Fragment.parts, List.flatMap_map]
    apply eq_flatMap_of_cons rfl
    intro value rest
    rw [Value.promotedLeaves, Value.promoted]
    split <;> rfl
  | _ => exact (List.append_nil _).symm

namespace Leaf

def notes (context : Context) : Leaf → List Note
  | bound value => if context.withParameters then [] else [.written value context.timezone]
  | name value => [.named value]
  | custom (.leaf label _ _ _ _) => [.counted label]
  | _ => []

def bound? : Leaf → Option Value
  | bound value => some value
  | _ => none

def name? : Leaf → Option Value
  | name value => some value
  | _ => none

def counter? : Leaf → Option Label
  | custom (.leaf label _ _ _ _) => some label
  | _ => none

end Leaf

namespace Note

def counted? : Note → Option Label
  | counted label => some label
  | _ => none

def named? : Note → Option Value
  | named name => some name
  | _ => none

def written? : Note → Option (Value × Value)
  | written value timezone => some (value, timezone)
  | _ => none

end Note

section

variable {β : Type} {select : Note → Option β}

private theorem notes_ownLeaves (hselect : ∀ kindName, select (.rendering kindName) = none)
    {f : Fragment} (h : f.isCounted = true) :
    ((Value.fragment f).ownNotes context).filterMap select =
      (f.ownLeaves.flatMap (Leaf.notes context)).filterMap select := by
  rw [Value.ownNotes, List.filterMap_cons_none (hselect _)]
  cases f with
  | parameterList values separator =>
    rw [Fragment.ownNotes, Fragment.ownLeaves, List.flatMap_map]
    unfold Leaf.notes
    by_cases hparam : context.withParameters = true
    · simp [hparam]
    · simp [hparam, List.map_eq_flatMap]
  | columnList columns separator =>
    rw [Fragment.ownNotes, Fragment.ownLeaves, List.flatMap_map, List.map_eq_flatMap]
    rfl
  | probe | deferred | endless | unrenderable => cases h
  | lines | clause | template | raw => rfl
  | _ => simp [Fragment.ownNotes, Fragment.ownLeaves, Fragment.leaves, Leaf.notes]

private theorem notes_leaves (hselect : ∀ kindName, select (.rendering kindName) = none)
    (target : Value) (hcounted : target.isCounted = true) :
    (target.occurrences.flatMap (Value.ownNotes context)).filterMap select =
      (target.leaves.flatMap (Leaf.notes context)).filterMap select := by
  induction target using Value.parts_induction with
  | fragment f ih =>
    have hown : ((Value.fragment f).ownNotes context).filterMap select =
        (f.ownLeaves.flatMap (Leaf.notes context)).filterMap select :=
      notes_ownLeaves hselect hcounted
    rw [Value.occurrences, Fragment.contents_eq, Value.leaves, Fragment.leaves_eq]
    rw [List.flatMap_cons, List.flatMap_append, List.filterMap_append, List.filterMap_append, hown,
      List.flatMap_assoc, List.flatMap_assoc]
    congr 1
    rw [List.filterMap_flatMap, List.filterMap_flatMap]
    apply List.flatMap_congr
    intro value hvalue
    exact ih value hvalue (isCounted_part hcounted value hvalue)
  | other value hne =>
    cases value with
    | fragment f => exact absurd rfl (hne f)
    | text s => simp [Value.occurrences, Value.leaves, Value.ownNotes, Leaf.notes]
    | _ => rfl

end

/-! ## Names, literals and counts -/

section

variable {β : Type} {select : Note → Option β} {pick : Leaf → Option β}

private theorem filterMap_notes
    (h : ∀ leaf : Leaf, (leaf.notes context).filterMap select = (pick leaf).toList)
    (leaves : List Leaf) :
    (leaves.flatMap (Leaf.notes context)).filterMap select = leaves.filterMap pick := by
  rw [List.filterMap_flatMap, List.filterMap_eq_flatMap_toList]
  exact List.flatMap_congr fun leaf _ => h leaf

end

private theorem named_notes (leaf : Leaf) :
    (leaf.notes context).filterMap Note.named? = leaf.name?.toList := by
  cases leaf with
  | bound value => by_cases hparam : context.withParameters <;> simp [Leaf.notes, Leaf.name?,
      Note.named?, hparam]
  | custom f => cases f <;> rfl
  | _ => rfl

private theorem counted_notes (leaf : Leaf) :
    (leaf.notes context).filterMap Note.counted? = leaf.counter?.toList := by
  cases leaf with
  | bound value => by_cases hparam : context.withParameters <;> simp [Leaf.notes, Leaf.counter?,
      Note.counted?, hparam]
  | custom f => cases f <;> rfl
  | _ => rfl

private theorem written_notes (leaf : Leaf) :
    (leaf.notes context).filterMap Note.written? =
      (if context.withParameters then none
        else leaf.bound?.map (·, context.timezone)).toList := by
  cases leaf with
  | bound value => by_cases hparam : context.withParameters <;> simp [Leaf.notes, Leaf.bound?,
      Note.written?, hparam]
  | custom f => cases f <;> simp [Leaf.notes, Leaf.bound?, Note.written?]
  | _ => simp [Leaf.notes, Leaf.bound?, Note.written?]

private theorem contributions_counted (hparam : context.withParameters = true) (target : Value)
    (hcounted : target.isCounted = true) :
    contributions context target.leaves = target.leaves.filterMap Leaf.bound? := by
  induction target using Value.parts_induction with
  | fragment f ih =>
    rw [Value.leaves, Fragment.leaves_eq]
    have hown : contributions context f.ownLeaves = f.ownLeaves.filterMap Leaf.bound? := by
      cases f with
      | parameter value =>
        simp [Fragment.ownLeaves, contributions, Leaf.bindings, Leaf.bound?, hparam]
      | parameterList values separator =>
        rw [Fragment.ownLeaves, contributions_bound, if_pos hparam, List.filterMap_map]
        exact (List.filterMap_some).symm
      | columnList columns separator =>
        rw [Fragment.ownLeaves, contributions_name, List.filterMap_map]
        simp [Function.comp_def, Leaf.bound?]
      | leaf label form text bindings assigned =>
        cases form <;> cases bindings <;> first | rfl | cases hcounted
      | probe | deferred | endless | unrenderable => cases hcounted
      | _ => rfl
    rw [contributions_append, hown, List.filterMap_append]
    congr 1
    rw [contributions, List.flatMap_assoc, List.filterMap_flatMap]
    apply List.flatMap_congr
    intro value hvalue
    exact ih value hvalue (isCounted_part hcounted value hvalue)
  | other value hne =>
    cases value with
    | fragment f => exact absurd rfl (hne f)
    | text s => simp [Value.leaves, contributions, Leaf.bindings, Leaf.bound?, hparam]
    | _ => rfl

/-! ## The transcript under options -/

theorem Context.Records.withMarks (h : context.Records env) : context.withMarks.Records env where
  written := h.written
  named := h.named

private theorem exists_normalize_withMarks {options : Options}
    (hcontext : options.normalize = .ok context) :
    ∃ others : Options, others.normalize = .ok context.withMarks := by
  obtain ⟨fields, _, rfl⟩ := map_eq_ok.1 hcontext
  refine ⟨.mapping 0 (fields.insert withParametersKey (.value (.bool true))), ?_⟩
  exact congrArg Except.ok (Context.ofFields_insert_withParameters fields true)

/-- Where a tree is rendered with escapers that record, every fragment in it is rendered once, and
whatever is evaluated is put down once, in the order of the tree. Leaves count one render each, and
names are written from left to right, in both modes; values are written only as literals, each with
the time zone of the context, and they are those that any render with placeholders binds. Where
the wording is made of texts there is such a render. -/
theorem Options.evaluated_once {options : Options} {target : Value} {rendered : Rendered}
    (hcontext : options.normalize = .ok context) (hrecords : context.Records env)
    (hcounted : target.isCounted = true) (hok : options.render env target = .ok rendered) :
    (options.visits env target).map Visit.fragment =
      target.occurrences.filterMap Value.fragment? ∧
    (options.evaluate env target).notes = target.occurrences.flatMap (Value.ownNotes context) ∧
    (options.evaluate env target).notes.filterMap Note.counted? =
      target.leaves.filterMap Leaf.counter? ∧
    (options.evaluate env target).notes.filterMap Note.named? =
      target.leaves.filterMap Leaf.name? ∧
    (options.evaluate env target).notes.filterMap Note.written? =
      (if context.withParameters then []
        else (target.leaves.filterMap Leaf.bound?).map (·, context.timezone)) ∧
    (∀ (others : Options) (context' : Context) (result : Result),
      others.normalize = .ok context' → context'.withParameters = true →
      others.render env target = .ok (.result result) →
      result.bindings = target.leaves.filterMap Leaf.bound?) ∧
    (target.isWorded = true → ∃ (others : Options) (result : Result),
      others.normalize = .ok context.withMarks ∧
      others.render env target = .ok (.result result)) := by
  have heval : options.evaluate env target = SqlFragments.evaluate env context target := by
    rw [evaluate, hcontext]
    exact pure_bind context _
  have hanswer : (SqlFragments.evaluate env context target).answer = .ok rendered := by
    rw [← heval, answer_evaluate, hok]
  have hnotes := notes_of_evaluate hrecords target hcounted hanswer
  rw [← heval] at hnotes
  refine ⟨(renders_walk hcontext hcounted (Nat.le_refl _)).rendered hanswer, hnotes, ?_, ?_, ?_, ?_,
    ?_⟩
  · rw [hnotes, notes_leaves (fun _ => rfl) target hcounted, filterMap_notes counted_notes]
  · rw [hnotes, notes_leaves (fun _ => rfl) target hcounted, filterMap_notes named_notes]
  · rw [hnotes, notes_leaves (fun _ => rfl) target hcounted, filterMap_notes written_notes]
    split
    · simp
    · rw [List.map_filterMap]
  · intro others context' result hothers hparam hresult
    rw [render, hothers] at hresult
    exact (bindings_of_evaluate target hresult).trans
      (contributions_counted hparam target hcounted)
  · intro hworded
    obtain ⟨marked, hmarked, hrelated⟩ := marks_of_isWorded target hworded hcounted rendered hanswer
    obtain ⟨others, hothers⟩ := exists_normalize_withMarks hcontext
    cases rendered with
    | other value => cases hrelated
    | result i =>
      obtain ⟨p, rfl, -⟩ := marked_result hrelated
      refine ⟨others, p, hothers, ?_⟩
      rw [render, hothers]
      exact hmarked

/-- Every literal is empty, so that a clause and a line are left out; what stands in them is still
written, and counted. -/
theorem Options.evaluated_once_empty :
    let options : Options := .mapping 0 [
      (.text "escape", .literalEscaper (.recordingConstant 2 (.text ""))),
      (.text "escape_id", .identifierEscaper (.recordingBackticks 3)),
      (.text "with_parameters", .value (.bool false)), (.text "timezone", .value (.text "local"))]
    let lines : Fragment := .lines [
      .fragment (.clause [.text "WHERE x = ", .text ""] (.fragment (.parameter (.int 1)))),
      .text "y", .fragment (.leaf 5 .counting (.text "z") [] [])] (.text "\n")
    let target : Value := .fragment (.template 0 .statement
      [.text "SELECT ", .text " FROM t", .text ""]
      [.fragment (.columnList [.text "a", .text "b"] (.text ", ")), .fragment lines])
    options.render {} target = .ok (.result { sql := .text "SELECT \x60a\x60, \x60b\x60 FROM t\nz" }) ∧
    (options.visits {} target).map Visit.fragment =
      target.occurrences.filterMap Value.fragment? ∧
    (options.evaluate {} target).notes.filterMap Note.counted? = [5] ∧
    (options.evaluate {} target).notes.filterMap Note.named? = [.text "a", .text "b"] ∧
    (options.evaluate {} target).notes.filterMap Note.written? =
      [(.int 1, .text "local"), (.text "y", .text "local")] ∧
    ∃ (others : Options) (result : Result), others.render {} target = .ok (.result result) ∧
      result.bindings = [.int 1, .text "y"] := by
  intro options lines target
  have hok : options.render {} target =
      .ok (.result { sql := .text "SELECT \x60a\x60, \x60b\x60 FROM t\nz" }) := by cbv
  let context : Context := .ofFields [
    (.text "escape", .literalEscaper (.recordingConstant 2 (.text ""))),
    (.text "escape_id", .identifierEscaper (.recordingBackticks 3)),
    (.text "with_parameters", .value (.bool false)), (.text "timezone", .value (.text "local"))]
  have hescapeId : context.escapeId = .recordingBackticks 3 ∨
      context.escapeId = .recordingConstant 3 (.text "") := .inl rfl
  have hrecords : context.Records {} := .of_library (.inr (.inl rfl)) hescapeId
  obtain ⟨hvisits, -, hcounted, hnamed, hwritten, hbindings, hmarks⟩ :=
    evaluated_once rfl hrecords (by decide) hok
  obtain ⟨others, result, hothers, hresult⟩ := hmarks (by decide)
  exact ⟨hok, hvisits, hcounted, hnamed, hwritten, others, result, hresult,
    hbindings others _ result hothers rfl hresult⟩

end SqlFragments
