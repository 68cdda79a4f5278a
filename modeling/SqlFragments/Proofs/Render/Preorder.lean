import SqlFragments.Proofs.Render.Chain
import SqlFragments.Proofs.Render.Leaf

/-!
# Fragments in order

The fragments of a tree in the order in which they begin to render: each in front of what stands in
it and of the fragment it renders to. A render that fails stops on the way, inside the fragment that
cannot be rendered for its own sake.
-/

namespace SqlFragments

open Outcome

variable {α : Type} {env : Environment} {context : Context}

mutual

/-- What begins to render for a fragment that comes after `depth` others in a row, itself first. A
plain value between literal parts is a parameter, and what a fragment renders to counts until there
were too many in a row. -/
def Fragment.preorder (depth : Nat) : Fragment → List Fragment
  | .lines members separator => .lines members separator :: Value.preorderEach members
  | .clause strings value => .clause strings value :: Value.preorder 0 value
  | .template label form strings values =>
    .template label form strings values :: Value.preorderPromoted values
  | .deferred label target assigned =>
    .deferred label target assigned ::
      (if depth < maxResolutionDepth then Value.preorder (depth + 1) target else [])
  | .endless label assigned =>
    .endless label assigned :: List.replicate (maxResolutionDepth - depth) (.endless label assigned)
  | f => [f]
termination_by structural f => f

def Value.preorder (depth : Nat) : Value → List Fragment
  | .fragment f => Fragment.preorder depth f
  | _ => []
termination_by structural v => v

def Value.preorderEach : List Value → List Fragment
  | [] => []
  | value :: rest => Value.preorder 0 value ++ Value.preorderEach rest
termination_by structural vs => vs

def Value.preorderPromoted : List Value → List Fragment
  | [] => []
  | value :: rest =>
    (if value.isPlain then [.parameter value] else Value.preorder 0 value) ++
      Value.preorderPromoted rest
termination_by structural vs => vs

end

namespace Fragment

theorem preorder_of_next_none {f : Fragment} (h : f.next? = none) (depth : Nat) :
    f.preorder depth = f :: f.parts.flatMap (Value.preorder 0) := by
  cases f with
  | lines members separator => exact congrArg _ (eq_flatMap_of_cons rfl (fun _ _ => rfl) members)
  | clause strings value => exact congrArg _ (List.flatMap_singleton _ _).symm
  | template label form strings values =>
    rw [Fragment.parts, List.flatMap_map, Fragment.preorder]
    refine congrArg _ (eq_flatMap_of_cons rfl ?_ values)
    intro value rest
    rw [Value.preorderPromoted, Value.promoted]
    split <;> rfl
  | deferred label target assigned =>
    cases target with
    | fragment g => cases h
    | _ => exact congrArg _ (ite_self _)
  | endless => cases h
  | _ => rfl

theorem preorder_of_next {f g : Fragment} (h : f.next? = some g) (depth : Nat) :
    f.preorder depth =
      f :: if depth < maxResolutionDepth then g.preorder (depth + 1) else [] := by
  unfold next? at h
  split at h
  · cases h
    rfl
  · cases h
    rw [Fragment.preorder]
    split
    · next hdepth =>
      have hleft : maxResolutionDepth - depth = maxResolutionDepth - (depth + 1) + 1 := by omega
      rw [Fragment.preorder, hleft, List.replicate_succ]
    · next hdepth =>
      rw [Nat.sub_eq_zero_of_le (Nat.le_of_not_lt hdepth)]
      rfl
  · cases h

end Fragment

/-! ## Where a render stops -/

def Value.Succeeds (env : Environment) (context : Context) (value : Value) : Prop :=
  ∃ rendered, (evaluate env context value).answer = .ok rendered

/-- A render that fails for a cause of its own once some things are evaluated: it does so whatever
comes of the other fragments that it might have evaluated. -/
def FailsAfter (env : Environment) (context : Context) (front : List Value) (cause : Failure)
    (render : (Value → Outcome Rendered) → Outcome α) : Prop :=
  ∀ evaluate' : Value → Outcome Rendered,
    (∀ value, (∀ f, value = .fragment f → value ∈ front) →
      evaluate' value = evaluate env context value) →
    (render evaluate').answer = .error cause

/-- How the render of a fragment stops for a cause, and what had begun to render by then: it is
refused, it is one too many in a row, the fragment that it renders to stops, a fragment in it stops
when those in front of it are done, or it fails by itself. -/
inductive Fragment.Stops (env : Environment) (context : Context) :
    Nat → Fragment → Failure → List Fragment → Prop
  | refused {depth : Nat} {f : Fragment} {cause : Failure}
    (hallow : context.allow f = .error cause) : Stops env context depth f cause []
  | tooDeep {depth : Nat} {f g : Fragment} (hallow : context.allow f = .ok ())
    (hnext : f.next? = some g) (hdepth : maxResolutionDepth ≤ depth) :
    Stops env context depth f (.resolutionTooDeep maxResolutionDepth) [f]
  | next {depth : Nat} {f g : Fragment} {cause : Failure} {rendered : List Fragment}
    (hallow : context.allow f = .ok ()) (hnext : f.next? = some g)
    (hdepth : depth < maxResolutionDepth) (hg : Stops env context (depth + 1) g cause rendered) :
    Stops env context depth f cause (f :: rendered)
  | inside {depth : Nat} {f g : Fragment} {front back : List Value} {cause : Failure}
    {rendered : List Fragment} (hallow : context.allow f = .ok ())
    (hparts : f.parts = front ++ .fragment g :: back)
    (hfront : ∀ value ∈ front, value.Succeeds env context)
    (hg : Stops env context 0 g cause rendered) :
    Stops env context depth f cause (f :: (front.flatMap (Value.preorder 0) ++ rendered))
  | itself {depth : Nat} {f : Fragment} {front back : List Value} {cause : Failure}
    (hallow : context.allow f = .ok ()) (hparts : f.parts = front ++ back)
    (hfront : ∀ value ∈ front, value.Succeeds env context)
    (hself : FailsAfter env context front cause fun evaluate =>
      f.renderBy id evaluate env context) :
    Stops env context depth f cause (f :: front.flatMap (Value.preorder 0))

def Value.Stops (env : Environment) (context : Context) (cause : Failure)
    (rendered : List Fragment) : Value → Prop
  | .fragment f => f.Stops env context 0 cause rendered
  | _ => rendered = []

theorem Value.preorder_of_ne_fragment {value : Value} (h : ∀ f, value ≠ .fragment f)
    (depth : Nat) : value.preorder depth = [] := by
  cases value with
  | fragment f => exact absurd rfl (h f)
  | _ => rfl

theorem Value.stops_of_ne_fragment {value : Value} (h : ∀ f, value ≠ .fragment f)
    {cause : Failure} {rendered : List Fragment} :
    value.Stops env context cause rendered ↔ rendered = [] := by
  cases value with
  | fragment f => exact absurd rfl (h f)
  | _ => rfl

theorem Fragment.parts_of_next {f g : Fragment} (h : f.next? = some g) : f.parts = [] := by
  cases f with
  | lines | clause | template => cases h
  | _ => rfl

/-- What had begun to render when a render stopped is the beginning of what would have. -/
theorem Fragment.Stops.isPrefix {depth : Nat} {f : Fragment} {cause : Failure}
    {rendered : List Fragment} (h : f.Stops env context depth cause rendered) :
    rendered <+: f.preorder depth := by
  induction h with
  | refused => exact List.nil_prefix
  | @tooDeep depth f g _ hnext hdepth =>
    rw [preorder_of_next hnext, List.prefix_cons_inj]
    exact List.nil_prefix
  | @next depth f g _ _ _ hnext hdepth _ ih =>
    rw [preorder_of_next hnext, if_pos hdepth, List.prefix_cons_inj]
    exact ih
  | @inside depth f g front back _ _ _ hparts _ _ ih =>
    have hnext : f.next? = none := by
      by_contra hsome
      obtain ⟨next, hnext⟩ := Option.ne_none_iff_exists'.1 hsome
      simp [parts_of_next hnext] at hparts
    rw [preorder_of_next_none hnext, hparts, List.prefix_cons_inj, List.flatMap_append,
      List.prefix_append_right_inj, List.flatMap_cons]
    exact ih.trans (List.prefix_append _ _)
  | @itself depth f front back _ _ hparts _ hself =>
    cases hnext : f.next? with
    | some g =>
      rw [parts_of_next hnext, List.nil_eq, List.append_eq_nil_iff] at hparts
      rw [preorder_of_next hnext, hparts.1, List.prefix_cons_inj]
      exact List.nil_prefix
    | none =>
      rw [preorder_of_next_none hnext, hparts, List.prefix_cons_inj, List.flatMap_append]
      exact List.prefix_append _ _

theorem Value.Stops.isPrefix {value : Value} {cause : Failure} {rendered : List Fragment}
    (h : value.Stops env context cause rendered) : rendered <+: value.preorder 0 := by
  rcases value.fragment_or_ne with ⟨f, rfl⟩ | hne
  · exact Fragment.Stops.isPrefix h
  · rw [(stops_of_ne_fragment hne).1 h]
    exact List.nil_prefix

end SqlFragments
