import SqlFragments.Value.Change

/-!
# Changes elsewhere

A change of a dictionary changes no value that the dictionary does not stand in.
-/

namespace SqlFragments

mutual

def Value.Lacks (label : Label) : Value → Prop
  | .list _ items => Value.LacksEach label items
  | .tuple items => Value.LacksEach label items
  | .dict l entries => l ≠ label ∧ Value.LacksEntries label entries
  | .fragment f => Fragment.Lacks label f
  | _ => True
termination_by structural v => v

def Value.LacksEach (label : Label) : List Value → Prop
  | [] => True
  | v :: rest => Value.Lacks label v ∧ Value.LacksEach label rest
termination_by structural vs => vs

def Value.LacksEntries (label : Label) : List (Value × Value) → Prop
  | [] => True
  | (k, v) :: rest => Value.Lacks label k ∧ Value.Lacks label v ∧ Value.LacksEntries label rest
termination_by structural entries => entries

def Value.LacksFields (label : Label) : List (String × Value) → Prop
  | [] => True
  | (_, v) :: rest => Value.Lacks label v ∧ Value.LacksFields label rest
termination_by structural fields => fields

def Fragment.Lacks (label : Label) : Fragment → Prop
  | .raw value => Value.Lacks label value
  | .identifier _ => True
  | .parameter value => Value.Lacks label value
  | .parameterList values separator => Value.LacksEach label values ∧ Value.Lacks label separator
  | .columnList columns separator => Value.LacksEach label columns ∧ Value.Lacks label separator
  | .lines members separator => Value.LacksEach label members ∧ Value.Lacks label separator
  | .clause strings value => Value.LacksEach label strings ∧ Value.Lacks label value
  | .template _ _ strings values => Value.LacksEach label strings ∧ Value.LacksEach label values
  | .leaf _ _ text bindings assigned =>
    Value.Lacks label text ∧ Value.LacksEach label bindings ∧ Value.LacksFields label assigned
  | .probe _ assigned => Value.LacksFields label assigned
  | .deferred _ target assigned => Value.Lacks label target ∧ Value.LacksFields label assigned
  | .endless _ assigned => Value.LacksFields label assigned
  | .unrenderable _ _ assigned => Value.LacksFields label assigned
termination_by structural f => f

end

variable {label : Label} {entries : List (Value × Value)}

mutual

theorem Value.apply_of_lacks (v : Value) (h : v.Lacks label) :
    v.apply (.entries label entries) = v := by
  match v with
  | .list l items => rw [Value.apply, Value.applyEach_of_lacks items h]; rfl
  | .tuple items => rw [Value.apply, Value.applyEach_of_lacks items h]
  | .dict l old =>
    rw [Value.apply, Value.applyEntries_of_lacks old h.2]
    show Value.dict l (if l = label then entries else old) = _
    rw [if_neg h.1]
  | .fragment f => rw [Value.apply, Fragment.apply_of_lacks f h]; rfl
  | .null | .bool _ | .int _ | .float _ _ | .decimal _ _ | .text _ | .dateTime _ | .date _
  | .object _ _ | .function _ => rfl
  | .bytes form _ => cases form <;> rfl
termination_by structural v

theorem Value.applyEach_of_lacks (vs : List Value) (h : Value.LacksEach label vs) :
    Value.applyEach (.entries label entries) vs = vs := by
  match vs with
  | [] => rfl
  | v :: rest =>
    rw [Value.applyEach, Value.apply_of_lacks v h.1, Value.applyEach_of_lacks rest h.2]
termination_by structural vs

theorem Value.applyEntries_of_lacks (old : List (Value × Value))
    (h : Value.LacksEntries label old) : Value.applyEntries (.entries label entries) old = old := by
  match old with
  | [] => rfl
  | (k, v) :: rest =>
    rw [Value.applyEntries, Value.apply_of_lacks k h.1, Value.apply_of_lacks v h.2.1,
      Value.applyEntries_of_lacks rest h.2.2]
termination_by structural old

theorem Value.applyFields_of_lacks (fields : List (String × Value))
    (h : Value.LacksFields label fields) :
    Value.applyFields (.entries label entries) fields = fields := by
  match fields with
  | [] => rfl
  | (name, v) :: rest =>
    rw [Value.applyFields, Value.apply_of_lacks v h.1, Value.applyFields_of_lacks rest h.2]
termination_by structural fields

theorem Fragment.apply_of_lacks (f : Fragment) (h : f.Lacks label) :
    f.apply (.entries label entries) = f := by
  match f with
  | .raw value => rw [Fragment.apply, Value.apply_of_lacks value h]
  | .identifier name => rfl
  | .parameter value => rw [Fragment.apply, Value.apply_of_lacks value h]
  | .parameterList values separator =>
    rw [Fragment.apply, Value.applyEach_of_lacks values h.1, Value.apply_of_lacks separator h.2]
  | .columnList columns separator =>
    rw [Fragment.apply, Value.applyEach_of_lacks columns h.1, Value.apply_of_lacks separator h.2]
  | .lines members separator =>
    rw [Fragment.apply, Value.applyEach_of_lacks members h.1, Value.apply_of_lacks separator h.2]
  | .clause strings value =>
    rw [Fragment.apply, Value.applyEach_of_lacks strings h.1, Value.apply_of_lacks value h.2]
  | .template l form strings values =>
    rw [Fragment.apply, Value.applyEach_of_lacks strings h.1, Value.applyEach_of_lacks values h.2]
  | .leaf l form text bindings assigned =>
    rw [Fragment.apply, Value.apply_of_lacks text h.1, Value.applyEach_of_lacks bindings h.2.1,
      Value.applyFields_of_lacks assigned h.2.2]
  | .probe l assigned => rw [Fragment.apply, Value.applyFields_of_lacks assigned h]
  | .deferred l target assigned =>
    rw [Fragment.apply, Value.apply_of_lacks target h.1, Value.applyFields_of_lacks assigned h.2]
  | .endless l assigned => rw [Fragment.apply, Value.applyFields_of_lacks assigned h]
  | .unrenderable l kind assigned => rw [Fragment.apply, Value.applyFields_of_lacks assigned h]
termination_by structural f

end

end SqlFragments
