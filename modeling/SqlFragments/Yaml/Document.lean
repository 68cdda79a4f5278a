import SqlFragments.Value.Dict
import SqlFragments.Yaml.Node
import SqlFragments.Yaml.Scalar

/-!
# Configuration documents

The value that a configuration document writes down. A repeated key keeps its first place and
its last value, and a mapping may take over the entries of others.
-/

namespace SqlFragments.Yaml

/-- A document that is worked out: scalars with their values, and mappings with the entries
that they take over from others in front of their own. Some collections have a form of their
own: rows of pairs, and names, each once. What has not the shape that its type asks for is a
fault. -/
inductive Draft
  | scalar (answer : Except Failure Value)
  | list (items : List Draft)
  | dict (entries : List (Draft × Draft))
  | names (entries : List (Draft × Draft))
  | pairs (items : List Draft)
  | pair (key value : Draft)
  | fault

namespace Draft

def entries? : Draft → Option (List (Draft × Draft))
  | dict entries | names entries => some entries
  | _ => none

/-- The entries that a mapping takes over from a mapping, or from several, of which the first
has the last word. -/
def taken? : Draft → Option (List (Draft × Draft))
  | dict entries | names entries => some entries
  | list items => (items.mapM entries?).map fun (rows : List _) => rows.reverse.flatten
  | _ => none

def joined? (entries : List (Draft × Draft)) (takenOver : List Draft) :
    Option (List (Draft × Draft)) :=
  (takenOver.mapM taken?).map fun (taken : List _) => taken.flatten ++ entries

def ofOnly : List (Draft × Draft) → Draft
  | [(key, value)] => pair key value
  | _ => fault

end Draft

namespace Node

def representative? : List (Node × Node) → Option Node
  | [] => none
  | (key, value) :: rest => if key.tag = .representative then some value else representative? rest

theorem sizeOf_lt_of_representative {tag : Tag} {entries : List (Node × Node)} {node : Node}
    (h : representative? entries = some node) :
    sizeOf node < sizeOf (Node.mapping tag entries) := by
  have aux : sizeOf node < sizeOf entries := by
    induction entries with
    | nil => simp [representative?] at h
    | cons entry rest ih =>
      obtain ⟨key, value⟩ := entry
      rw [representative?] at h
      split at h
      · cases h
        simp
        omega
      · have := ih h
        simp
        omega
  simp
  omega

def scalarText? : Node → Option String
  | .scalar _ text => some text
  | .sequence _ _ => none
  | .mapping _ entries =>
    match _h : representative? entries with
    | some node => scalarText? node
    | none => none
termination_by node => sizeOf node
decreasing_by exact sizeOf_lt_of_representative ‹_›

def scalarAnswer (node : Node) : Except Failure Value :=
  match node.scalarText? with
  | some text => Scalar.value node.tag text
  | none => .error .badDocumentValue

mutual

/-- Works a node out. As a key `=` is a text, and `<<` stands in front of what is taken over. -/
def draft : Node → Draft
  | .scalar tag text =>
    match tag with
    | .sequence | .mapping | .orderedMapping | .pairs | .names => .fault
    | tag => .scalar (Scalar.value tag text)
  | .sequence tag items =>
    match tag with
    | .sequence => .list (drafts items)
    | .pairs | .orderedMapping => .pairs (rows items)
    | .mapping | .names => .fault
    | _ => .scalar (.error .badDocumentValue)
  | .mapping tag entries =>
    match tag with
    | .mapping => ((Draft.joined? (ownEntries entries) (takenOver entries)).elim .fault .dict)
    | .names => ((Draft.joined? (ownEntries entries) (takenOver entries)).elim .fault .names)
    | .sequence | .pairs | .orderedMapping => .fault
    | tag => .scalar (scalarAnswer (.mapping tag entries))
termination_by structural node => node

def drafts : List Node → List Draft
  | [] => []
  | node :: rest => draft node :: drafts rest
termination_by structural nodes => nodes

def rows : List Node → List Draft
  | [] => []
  | node :: rest => row node :: rows rest
termination_by structural nodes => nodes

def row : Node → Draft
  | .mapping _ entries => Draft.ofOnly (plainEntries entries)
  | _ => .fault
termination_by structural node => node

def plainEntries : List (Node × Node) → List (Draft × Draft)
  | [] => []
  | (key, node) :: rest => (draft key, draft node) :: plainEntries rest
termination_by structural entries => entries

def ownEntries : List (Node × Node) → List (Draft × Draft)
  | [] => []
  | (key, node) :: rest =>
    let rest := ownEntries rest
    match key with
    | .scalar .merge _ => rest
    | .scalar .representative text => (.scalar (.ok (.text text)), draft node) :: rest
    | key => (draft key, draft node) :: rest
termination_by structural entries => entries

def takenOver : List (Node × Node) → List Draft
  | [] => []
  | (key, node) :: rest =>
    let rest := takenOver rest
    match key with
    | .scalar .merge _ => draft node :: rest
    | _ => rest
termination_by structural entries => entries

end

end Node

namespace Draft

/-- What is wrong with a draft where it stands inside another: only scalars are looked at. -/
def scalarFault? : Draft → Option Failure
  | scalar (.error cause) => some cause
  | _ => none

def entryFault? (key value : Draft) : Option Failure :=
  match key with
  | scalar (.error cause) => some cause
  | scalar (.ok key) => if key.isHashable then value.scalarFault? else some .badDocumentValue
  | _ => some .badDocumentValue

def pairFault? : Draft → Option Failure
  | pair key value => key.scalarFault?.or value.scalarFault?
  | _ => some .badDocumentValue

mutual

def faultAt? (depth : Nat) : Draft → Option Failure
  | scalar _ => none
  | list items =>
    match depth with
    | 0 => items.findSome? scalarFault?
    | depth + 1 => firstFaultAt? depth items
  | dict entries =>
    match depth with
    | 0 => entries.findSome? fun (key, value) => entryFault? key value
    | depth + 1 => entriesFaultAt? depth entries
  | names entries =>
    match depth with
    | 0 => entries.findSome? fun (key, value) => entryFault? key value
    | depth + 1 => entriesFaultAt? depth entries
  | pairs items =>
    match depth with
    | 0 => items.findSome? pairFault?
    | depth + 1 => firstFaultAt? depth items
  | pair key value => (faultAt? depth key).or (faultAt? depth value)
  | fault => if depth = 0 then some .badDocumentValue else none
termination_by structural d => d

def firstFaultAt? (depth : Nat) : List Draft → Option Failure
  | [] => none
  | draft :: rest => (faultAt? depth draft).or (firstFaultAt? depth rest)
termination_by structural ds => ds

def entriesFaultAt? (depth : Nat) : List (Draft × Draft) → Option Failure
  | [] => none
  | (_, value) :: rest => (faultAt? depth value).or (entriesFaultAt? depth rest)
termination_by structural entries => entries

end

mutual

def depth : Draft → Nat
  | list items => depthOfEach items + 1
  | dict entries => depthOfEntries entries + 1
  | names entries => depthOfEntries entries + 1
  | pairs items => depthOfEach items + 1
  | pair key value => max (depth key) (depth value)
  | _ => 0
termination_by structural d => d

def depthOfEach : List Draft → Nat
  | [] => 0
  | draft :: rest => max (depth draft) (depthOfEach rest)
termination_by structural ds => ds

def depthOfEntries : List (Draft × Draft) → Nat
  | [] => 0
  | (_, value) :: rest => max (depth value) (depthOfEntries rest)
termination_by structural entries => entries

end

/-- The first fault of a draft. Collections are gone through depth by depth, so what is wrong in
an outer one comes before what is wrong further inside. -/
def fault? (draft : Draft) : Option Failure :=
  (draft.scalarFault?).or ((List.range (draft.depth + 1)).findSome? fun depth =>
    faultAt? depth draft)

mutual

/-- The value of a draft without faults. A repeated key keeps its first place and its last
value. -/
def toValue : Draft → Value
  | scalar (.ok v) => v
  | scalar (.error _) => .null
  | list items => .list 0 (toValues items)
  | dict entries => .dict 0 (Entries.ofList (toPairs entries))
  | names entries => .list 0 ((Entries.ofList (toPairs entries)).map (·.1))
  | pairs items => .list 0 (toValues items)
  | pair key value => .tuple [toValue key, toValue value]
  | fault => .null
termination_by structural d => d

def toValues : List Draft → List Value
  | [] => []
  | draft :: rest => toValue draft :: toValues rest
termination_by structural ds => ds

def toPairs : List (Draft × Draft) → List (Value × Value)
  | [] => []
  | (key, value) :: rest => (toValue key, toValue value) :: toPairs rest
termination_by structural entries => entries

end

end Draft

def Node.toValue (node : Node) : Except Failure Value :=
  match node.draft.fault? with
  | some cause => .error cause
  | none => .ok node.draft.toValue

def isAllowed (c : Char) : Bool :=
  c == '\t' || c == '\n' || c == '\r' || (' ' ≤ c && c ≤ '~') || c == '\x85' ||
    ('\xa0' ≤ c && c ≤ '\uFFFD') || 0x10000 ≤ c.toNat

def withLineFeeds : List Char → List Char
  | '\r' :: '\n' :: rest => '\n' :: withLineFeeds rest
  | '\r' :: rest => '\n' :: withLineFeeds rest
  | c :: rest => c :: withLineFeeds rest
  | [] => []

def valueOf (text : String) : Except Failure Value := do
  let cs := withLineFeeds text.toList
  if cs.all isAllowed then
    match ← Node.parse cs with
    | some node => node.toValue
    | none => return .null
  else .error .badDocumentCharacter

end SqlFragments.Yaml
