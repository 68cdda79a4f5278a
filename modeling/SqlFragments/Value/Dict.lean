import SqlFragments.Value.Equality

/-!
# Dictionaries

A dictionary keeps its keys in the order in which they came. An equal key keeps its place and
takes the later value.
-/

namespace SqlFragments

mutual

def Value.isHashable : Value → Bool
  | .decimal _ (.nan _ signaling _) => !signaling
  | .bytes (.changeable _) _ => false
  | .list _ _ => false
  | .dict _ _ => false
  | .tuple items => Value.allHashable items
  | .fragment f => Fragment.isHashable f
  | _ => true
termination_by structural v => v

def Value.allHashable : List Value → Bool
  | [] => true
  | v :: rest => Value.isHashable v && Value.allHashable rest
termination_by structural vs => vs

def Fragment.isHashable : Fragment → Bool
  | .raw value => Value.isHashable value
  | .parameter value => Value.isHashable value
  | .parameterList values separator => Value.allHashable values && Value.isHashable separator
  | .columnList columns separator => Value.allHashable columns && Value.isHashable separator
  | .lines members separator => Value.allHashable members && Value.isHashable separator
  | .clause strings value => Value.allHashable strings && Value.isHashable value
  | _ => true
termination_by structural f => f

end

/-- Pairs of keys and values, the keys in the order of their first coming. -/
abbrev Entries (α : Type) := List (Value × α)

namespace Entries

variable {α : Type}

def get? (entries : Entries α) (key : Value) : Option α :=
  (entries.find? fun entry => entry.1.sameKey key).map (·.2)

/-- Puts a value at a key: in the place of an equal key, which stays, or at the end. -/
def insert (entries : Entries α) (key : Value) (value : α) : Entries α :=
  match entries with
  | [] => [(key, value)]
  | entry :: rest =>
    if entry.1.sameKey key then (entry.1, value) :: rest else entry :: insert rest key value

def erase (entries : Entries α) (key : Value) : Entries α :=
  entries.filter fun entry => !entry.1.sameKey key

def ofList (pairs : List (Value × α)) : Entries α :=
  pairs.foldl (fun entries pair => insert entries pair.1 pair.2) []

end Entries

end SqlFragments
