import SqlFragments.Render.Evaluate

/-!
# Leaves and wording

A tree of fragments is read from left to right as its leaves, the places where a value, a name
or a text of the user enters the statement, and as its wording, the literal parts and
separators around them.
-/

namespace SqlFragments

/-! ## Values in a list -/

section

variable {α β : Type}

theorem forall_of_cons {each : List α → Bool} {one : α → Bool}
    (hcons : ∀ a rest, each (a :: rest) = (one a && each rest)) {values : List α}
    (h : each values = true) : ∀ a ∈ values, one a = true := by
  induction values with
  | nil => exact fun _ ha => by cases ha
  | cons a rest ih =>
    rw [hcons, Bool.and_eq_true] at h
    rw [List.forall_mem_cons]
    exact ⟨h.1, ih h.2⟩

theorem eq_flatMap_of_cons {each : List α → List β} {one : α → List β} (hnil : each [] = [])
    (hcons : ∀ a rest, each (a :: rest) = one a ++ each rest) (values : List α) :
    each values = values.flatMap one := by
  induction values with
  | nil => exact hnil
  | cons a rest ih => rw [hcons, ih, List.flatMap_cons]

end

/-! ## Trees -/

/-- What stands at the tips of a tree: nothing, a value to bind, text that is taken over as it
is, a name, or a fragment of the user. -/
inductive Leaf
  | null
  | bound (value : Value)
  | verbatim (value : Value)
  | name (value : Value)
  | custom (fragment : Fragment)

mutual

def Fragment.leaves : Fragment → List Leaf
  | .raw value => [.verbatim value]
  | .identifier name => [.name (.text name)]
  | .parameter value => [.bound value]
  | .parameterList values _ => values.map .bound
  | .columnList columns _ => columns.map .name
  | .lines members _ => Value.leavesEach members
  | .clause _ value => Value.leaves value
  | .template _ _ _ values => Value.promotedLeaves values
  | .leaf label form text bindings assigned => [.custom (.leaf label form text bindings assigned)]
  | .probe label assigned => [.custom (.probe label assigned)]
  | .deferred _ target _ =>
    match target with
    | .fragment f => Fragment.leaves f
    | _ => []
  | .endless label assigned => [.custom (.endless label assigned)]
  | .unrenderable label kind assigned => [.custom (.unrenderable label kind assigned)]
termination_by structural f => f

/-- The leaves of a thing that is rendered by itself, in a clause or among lines. -/
def Value.leaves : Value → List Leaf
  | .null => [.null]
  | .text s => [.bound (.text s)]
  | .fragment f => Fragment.leaves f
  | _ => []
termination_by structural v => v

def Value.leavesEach : List Value → List Leaf
  | [] => []
  | value :: rest => Value.leaves value ++ Value.leavesEach rest
termination_by structural vs => vs

def Value.promotedLeaves : List Value → List Leaf
  | [] => []
  | value :: rest =>
    (if value.isPlain then [.bound value] else Value.leaves value) ++ Value.promotedLeaves rest
termination_by structural vs => vs

end

mutual

def Fragment.wording : Fragment → List Value
  | .parameterList _ separator => [separator]
  | .columnList _ separator => [separator]
  | .lines members separator => separator :: Value.wordingEach members
  | .clause strings value => strings ++ Value.wording value
  | .template _ _ strings values => strings ++ Value.wordingEach values
  | .deferred _ target _ =>
    match target with
    | .fragment f => Fragment.wording f
    | _ => []
  | _ => []
termination_by structural f => f

def Value.wording : Value → List Value
  | .fragment f => Fragment.wording f
  | _ => []
termination_by structural v => v

def Value.wordingEach : List Value → List Value
  | [] => []
  | value :: rest => Value.wording value ++ Value.wordingEach rest
termination_by structural vs => vs

end

/-- What a fragment of the user binds; one that shows its context binds the settings it got. -/
def Fragment.ownBindings (context : Context) : Fragment → List Value
  | .leaf _ _ _ bindings _ => bindings
  | .probe _ _ =>
    [.bool context.withParameters, context.timezone, .bool context.preparing, context.method]
  | _ => []

namespace Leaf

def bindings (context : Context) : Leaf → List Value
  | bound value => if context.withParameters then [value] else []
  | custom f => f.ownBindings context
  | _ => []

end Leaf

end SqlFragments
