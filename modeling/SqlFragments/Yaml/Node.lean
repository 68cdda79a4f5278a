import SqlFragments.Yaml.Scalar
import SqlFragments.Yaml.Token

/-!
# Nodes of configuration documents

A document is a scalar, a sequence or a mapping, each of a type. What is left out counts as a
plain scalar without text. Nodes are read from tokens; the tokens may end too early, and then
whoever asks for one more fails with the reason of that end. A node that has a name can be used
again behind it.
-/

namespace SqlFragments.Yaml

inductive Node
  | scalar (tag : Tag) (text : String)
  | sequence (tag : Tag) (items : List Node)
  | mapping (tag : Tag) (entries : List (Node × Node))

namespace Node

def tag : Node → Tag
  | scalar tag _ => tag
  | sequence tag _ => tag
  | mapping tag _ => tag

def absent : Node := scalar .nothing ""

end Node

/-- What is known while nodes are read: the tokens that are left, why they end, what the
handles of tags stand for, and the nodes with names. A node inside of which reading is has no
value yet. -/
structure Reader where
  tokens : List Token
  ending : Failure
  handles : List (String × String) := [("!", "!"), ("!!", Tag.stem)]
  anchors : List (String × Option Node) := []

abbrev Reading (α : Type) : Type := StateT Reader (Except Failure) α

namespace Reading

def peek : Reading Token := do
  let r ← get
  match r.tokens with
  | t :: _ => return t
  | [] => throw r.ending

def advance : Reading Unit :=
  modify fun r => { r with tokens := r.tokens.tail }

def lookUp (name : String) : Reading Node := do
  let r ← get
  match r.anchors.lookup name with
  | some (some node) => return node
  | some none => throw .endlessDocument
  | none => throw .unknownAnchor

def named (name? : Option String) (read : Reading Node) : Reading Node := do
  match name? with
  | none => read
  | some name =>
    if ((← get).anchors.lookup name).isSome then throw .repeatedAnchor
    modify fun r => { r with anchors := (name, none) :: r.anchors }
    let node ← read
    modify fun r => { r with anchors := (name, some node) :: r.anchors }
    return node

def anchor? : Reading (Option String) := do
  match ← peek with
  | .anchor name =>
    advance
    return some name
  | _ => return none

def tag? : Reading (Option (Option String × String)) := do
  match ← peek with
  | .tag handle text =>
    advance
    return some (handle, text)
  | _ => return none

def wholeTag (handle : Option String) (text : String) : Reading String := do
  match handle with
  | none => return text
  | some handle =>
    match (← get).handles.lookup handle with
    | some stem => return stem ++ text
    | none => throw .badDocumentStructure

def properties : Reading (Option String × Option String) := do
  let first ← anchor?
  let tag ← tag?
  let second ← if first.isNone ∧ tag.isSome then anchor? else pure none
  match tag with
  | some (handle, text) => return (first.or second, some (← wholeTag handle text))
  | none => return (first.or second, none)

/-- The type of a scalar with a tag. The shortest tag asks for the type of a plain scalar. -/
def scalarTag (tag : Option String) (text : String) (plain : Bool) : Tag :=
  match tag with
  | none => if plain then Scalar.tagOf text else .text
  | some "!" => Scalar.tagOf text
  | some tag => Tag.ofText tag

def collectionTag (tag : Option String) (usual : Tag) : Tag :=
  match tag with
  | none | some "!" => usual
  | some tag => Tag.ofText tag

def separated : Reading Unit := do
  match ← peek with
  | .flowEntry => advance
  | _ => throw .badDocumentStructure

/-- What stands where a node has a name or a tag but no content. Without them it is a fault. -/
def bare (name? tag : Option String) : Reading Node :=
  if name?.isNone ∧ tag.isNone then throw .badDocumentStructure
  else named name? (return .scalar (scalarTag tag "" true) "")

mutual

/-- A node. Block collections stand only in a block; a sequence behind a key need not be
indented further than the key, and then nothing opens it. -/
def node : Nat → Bool → Bool → Reading Node
  | 0, _, _ => throw .badDocumentStructure
  | fuel + 1, inBlock, behindKey => do
    match ← peek with
    | .alias name =>
      advance
      lookUp name
    | _ =>
      let (name?, tag) ← properties
      match ← peek with
      | .scalar text plain =>
        advance
        named name? (return .scalar (scalarTag tag text plain) text)
      | .flowSequenceStart =>
        advance
        named name? (.sequence (collectionTag tag .sequence) <$> flowItems fuel true)
      | .flowMappingStart =>
        advance
        named name? (.mapping (collectionTag tag .mapping) <$> flowEntries fuel true)
      | .blockEntry =>
        if behindKey then
          named name? (.sequence (collectionTag tag .sequence) <$> openItems fuel)
        else bare name? tag
      | .blockSequenceStart =>
        if inBlock then
          advance
          named name? (.sequence (collectionTag tag .sequence) <$> blockItems fuel)
        else bare name? tag
      | .blockMappingStart =>
        if inBlock then
          advance
          named name? (.mapping (collectionTag tag .mapping) <$> blockEntries fuel)
        else bare name? tag
      | _ => bare name? tag
termination_by structural fuel => fuel

/-- A node, which is left out when the next token is one of `stops`. -/
def nodeUnless : Nat → List Token → Bool → Bool → Reading Node
  | 0, _, _, _ => throw .badDocumentStructure
  | fuel + 1, stops, inBlock, behindKey => do
    if stops.contains (← peek) then return .absent
    else node fuel inBlock behindKey
termination_by structural fuel => fuel

def blockItems : Nat → Reading (List Node)
  | 0 => throw .badDocumentStructure
  | fuel + 1 => do
    match ← peek with
    | .blockEntry =>
      advance
      let item ← nodeUnless fuel [.blockEntry, .blockEnd] true false
      let items ← blockItems fuel
      return item :: items
    | .blockEnd =>
      advance
      return []
    | _ => throw .badDocumentStructure
termination_by structural fuel => fuel

/-- The members of a sequence that nothing opens, and so nothing closes. -/
def openItems : Nat → Reading (List Node)
  | 0 => throw .badDocumentStructure
  | fuel + 1 => do
    match ← peek with
    | .blockEntry =>
      advance
      let item ← nodeUnless fuel [.blockEntry, .key, .value, .blockEnd] true false
      let items ← openItems fuel
      return item :: items
    | _ => return []
termination_by structural fuel => fuel

def blockEntries : Nat → Reading (List (Node × Node))
  | 0 => throw .badDocumentStructure
  | fuel + 1 => do
    match ← peek with
    | .key =>
      advance
      let key ← nodeUnless fuel [.key, .value, .blockEnd] true true
      let value ← valueOf fuel [.key, .value, .blockEnd] true
      let entries ← blockEntries fuel
      return (key, value) :: entries
    | .blockEnd =>
      advance
      return []
    | _ => throw .badDocumentStructure
termination_by structural fuel => fuel

def valueOf : Nat → List Token → Bool → Reading Node
  | 0, _, _ => throw .badDocumentStructure
  | fuel + 1, stops, inBlock => do
    match ← peek with
    | .value =>
      advance
      nodeUnless fuel stops inBlock inBlock
    | _ => return .absent
termination_by structural fuel => fuel

/-- The members of a flow sequence, up to its end. Commas stand between them. A key among them
makes a mapping of one entry. -/
def flowItems : Nat → Bool → Reading (List Node)
  | 0, _ => throw .badDocumentStructure
  | fuel + 1, first => do
    if (← peek) = .flowSequenceEnd then
      advance
      return []
    unless first do separated
    match ← peek with
    | .flowSequenceEnd =>
      advance
      return []
    | .key =>
      advance
      let key ← nodeUnless fuel [.value, .flowEntry, .flowSequenceEnd] false false
      let value ← valueOf fuel [.flowEntry, .flowSequenceEnd] false
      let items ← flowItems fuel false
      return .mapping .mapping [(key, value)] :: items
    | _ =>
      let item ← node fuel false false
      let items ← flowItems fuel false
      return item :: items
termination_by structural fuel => fuel

def flowEntries : Nat → Bool → Reading (List (Node × Node))
  | 0, _ => throw .badDocumentStructure
  | fuel + 1, first => do
    if (← peek) = .flowMappingEnd then
      advance
      return []
    unless first do separated
    match ← peek with
    | .flowMappingEnd =>
      advance
      return []
    | .key =>
      advance
      let key ← nodeUnless fuel [.value, .flowEntry, .flowMappingEnd] false false
      let value ← valueOf fuel [.flowEntry, .flowMappingEnd] false
      let entries ← flowEntries fuel false
      return (key, value) :: entries
    | _ =>
      let key ← node fuel false false
      let entries ← flowEntries fuel false
      return (key, .absent) :: entries
termination_by structural fuel => fuel

end

/-! ## Documents -/

/-- The directives in front of a document, of which the handles count. The version is given
once and must be one that is known, and a handle is given once. -/
def directives : Nat → Bool → List (String × String) → Reading (List (String × String))
  | 0, _, handles => return handles
  | fuel + 1, versioned, handles => do
    match ← peek with
    | .directive (.version major _) =>
      advance
      if versioned ∨ major ≠ 1 then throw .badDocumentStructure
      directives fuel true handles
    | .directive (.handle name stem) =>
      advance
      if (handles.lookup name).isSome then throw .badDocumentStructure
      directives fuel versioned ((name, stem) :: handles)
    | .directive .other =>
      advance
      directives fuel versioned handles
    | _ => return handles

def start (fuel : Nat) : Reading Unit := do
  let handles ← directives fuel false []
  match ← peek with
  | .documentStart =>
    advance
    modify fun r => { r with handles := handles ++ [("!", "!"), ("!!", Tag.stem)] }
  | _ => throw .badDocumentStructure

def isDirective : Token → Bool
  | .directive _ => true
  | _ => false

def checkEnd : Nat → Reading Unit
  | 0 => throw .badDocumentStructure
  | fuel + 1 => do
    match ← peek with
    | .documentEnd =>
      advance
      checkEnd fuel
    | .finish => return
    | _ =>
      start fuel
      throw .severalDocuments

def document (fuel : Nat) : Reading (Option Node) := do
  let first ← peek
  if first = .finish then return none
  let root ←
    if first = .documentStart ∨ isDirective first then do
      start fuel
      let next ← peek
      if [.documentStart, .documentEnd, .finish].contains next ∨ isDirective next then
        pure .absent
      else node fuel true false
    else node fuel true false
  checkEnd fuel
  return some root

end Reading

def Node.parse (text : List Char) : Except Failure (Option Node) :=
  let (tokens, ending) := tokensOf text
  let reader : Reader := { tokens, ending := ending.getD .badDocumentStructure }
  ((Reading.document (4 * tokens.length + 4)).run reader).map (·.1)

end SqlFragments.Yaml
