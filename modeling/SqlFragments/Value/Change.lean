import SqlFragments.Value.Basic

/-!
# Changes in place

A list that grows, a dictionary that gets a key or an object that is assigned a field changes
wherever it stands, so all its occurrences, known by their label, change alike.
-/

namespace SqlFragments

def assignField (fields : List (String × Value)) (name : String) (value : Value) :
    List (String × Value) :=
  match fields with
  | [] => [(name, value)]
  | field :: rest =>
    if field.1 = name then (name, value) :: rest else field :: assignField rest name value

inductive Change
  /-- A list has these members from now on. -/
  | members (label : Label) (items : List Value)
  /-- Changeable bytes are these from now on. -/
  | bytes (label : Label) (data : List UInt8)
  /-- A dictionary has these entries from now on. -/
  | entries (label : Label) (entries : List (Value × Value))
  /-- An object or a fragment of the user is assigned a field. -/
  | field (label : Label) (name : String) (value : Value)

namespace Fragment

/-- A fragment of the user with one more field assigned. A field that decides how the fragment
renders is a part of it. -/
def assign (f : Fragment) (name : String) (value : Value) : Fragment :=
  match f with
  | leaf label .silent text bindings assigned =>
    if name = "binding" then leaf label .silent text [value] assigned
    else leaf label .silent text bindings (assignField assigned name value)
  | leaf label .counting text bindings assigned =>
    if name = "text" then leaf label .counting value bindings assigned
    else leaf label .counting text bindings (assignField assigned name value)
  | probe label assigned => probe label (assignField assigned name value)
  | deferred label target assigned =>
    if name = "target" then deferred label value assigned
    else deferred label target (assignField assigned name value)
  | endless label assigned => endless label (assignField assigned name value)
  | unrenderable label kind assigned => unrenderable label kind (assignField assigned name value)
  | f => f

end Fragment

def Change.here (change : Change) (value : Value) : Value :=
  match change, value with
  | .members label items, .list l old => .list l (if l = label then items else old)
  | .bytes label data, .bytes (.changeable l) old =>
    .bytes (.changeable l) (if l = label then data else old)
  | .entries label new, .dict l old => .dict l (if l = label then new else old)
  | .field label name given, .object l shown =>
    .object l (if l = label ∧ name = "text" then given.text? else shown)
  | .field label name given, .fragment f =>
    .fragment (if f.assignable? = some label then f.assign name given else f)
  | _, value => value

mutual

def Value.apply (change : Change) : Value → Value
  | .list label items => change.here (.list label (Value.applyEach change items))
  | .tuple items => .tuple (Value.applyEach change items)
  | .dict label entries => change.here (.dict label (Value.applyEntries change entries))
  | .fragment f => change.here (.fragment (Fragment.apply change f))
  | other => change.here other
termination_by structural v => v

def Value.applyEach (change : Change) : List Value → List Value
  | [] => []
  | v :: rest => Value.apply change v :: Value.applyEach change rest
termination_by structural vs => vs

def Value.applyEntries (change : Change) : List (Value × Value) → List (Value × Value)
  | [] => []
  | (k, v) :: rest =>
    (Value.apply change k, Value.apply change v) :: Value.applyEntries change rest
termination_by structural entries => entries

def Value.applyFields (change : Change) : List (String × Value) → List (String × Value)
  | [] => []
  | (name, v) :: rest => (name, Value.apply change v) :: Value.applyFields change rest
termination_by structural fields => fields

def Fragment.apply (change : Change) : Fragment → Fragment
  | .raw value => .raw (Value.apply change value)
  | .identifier name => .identifier name
  | .parameter value => .parameter (Value.apply change value)
  | .parameterList values separator =>
    .parameterList (Value.applyEach change values) (Value.apply change separator)
  | .columnList columns separator =>
    .columnList (Value.applyEach change columns) (Value.apply change separator)
  | .lines members separator =>
    .lines (Value.applyEach change members) (Value.apply change separator)
  | .clause strings value =>
    .clause (Value.applyEach change strings) (Value.apply change value)
  | .template l form strings values =>
    .template l form (Value.applyEach change strings) (Value.applyEach change values)
  | .leaf l form text bindings assigned =>
    .leaf l form (Value.apply change text) (Value.applyEach change bindings)
      (Value.applyFields change assigned)
  | .probe l assigned => .probe l (Value.applyFields change assigned)
  | .deferred l target assigned =>
    .deferred l (Value.apply change target) (Value.applyFields change assigned)
  | .endless l assigned => .endless l (Value.applyFields change assigned)
  | .unrenderable l kind assigned => .unrenderable l kind (Value.applyFields change assigned)
termination_by structural f => f

end

end SqlFragments
