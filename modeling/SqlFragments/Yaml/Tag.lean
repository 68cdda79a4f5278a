/-!
# Tags of nodes

The types of the nodes of a document, and the names by which a tag may ask for them.
-/

namespace SqlFragments.Yaml

inductive Tag
  | nothing
  | truth
  | integer
  | double
  | bytes
  | moment
  | text
  | sequence
  | mapping
  | orderedMapping
  | pairs
  | names
  /-- As a key: the mapping takes over the entries of others. -/
  | merge
  /-- As a key: the scalar that a mapping stands for. -/
  | representative
  | unknown
deriving DecidableEq, Repr

namespace Tag

def stem : String := "tag:yaml.org,2002:"

def byName : List (String × Tag) :=
  [("null", nothing), ("bool", truth), ("int", integer), ("float", double), ("binary", bytes),
    ("timestamp", moment), ("str", text), ("seq", sequence), ("map", mapping),
    ("omap", orderedMapping), ("pairs", pairs), ("set", names), ("merge", merge),
    ("value", representative)]

def ofText (s : String) : Tag :=
  match byName.find? fun (name, _) => stem ++ name == s with
  | some (_, tag) => tag
  | none => unknown

end Tag

end SqlFragments.Yaml
