import SqlFragments.Value.Display

/-!
# Failures

What can go wrong while fragments are built and rendered, by cause. A cause belongs to a
category, and some causes have a message of their own.
-/

namespace SqlFragments

inductive Failure.Category
  | invalidArgument
  | invalidState
  | missingFile
  | frozenField
  | wrongType
  | missingAttribute
  | badValue
  | indexOutOfRange
  | missingKey
  | badNumber
  | numberTooLarge
  | tooMuchMemory
  | inUse
  | badDocumentCharacter
  | badDocumentToken
  | badDocumentStructure
  | badDocumentReference
  | badDocumentValue
  | endlessDocument
deriving DecidableEq, Repr

inductive Failure
  /-- The literal parts of a template are no list. -/
  | literalsExpected (kind : Kind) (seen : Value)
  /-- There must be one literal part more than values. -/
  | literalCount (kind : Kind) (literals values : Nat)
  /-- A clause takes one value. -/
  | singleValueExpected (count : Nat) (seen : Value)
  /-- An identifier takes a text. -/
  | nameExpected (seen : Value)
  /-- What takes a list was given something else. -/
  | listExpected (kind : Kind) (seen : Value)
  /-- A section of the configuration has keys that mean nothing there. -/
  | unknownKeys (place : String) (keys : List String)
  /-- Render options are neither absent nor a mapping nor a context. -/
  | optionsExpected (typeName : String)
  /-- Only fragments, texts and nothing can be rendered. -/
  | notRenderable (seen : Value)
  | literalEscaperExpected
  | identifierEscaperExpected
  /-- A fragment of the user does not say how it is rendered. -/
  | rendererExpected (kindName : String)
  /-- Fragments rendered to fragments more often than the limit allows. -/
  | resolutionTooDeep (limit : Nat)
  | fileNotFound (path : String)
  /-- Fragments never change. -/
  | frozenField (field : String)
  | wrongType
  | missingAttribute
  | badValue
  | indexOutOfRange
  | missingKey
  | badNumber
  | numberTooLarge
  | tooMuchMemory
  /-- What is being read cannot grow. -/
  | inUse
  | badDocumentCharacter
  | badDocumentToken
  | badDocumentStructure
  /-- Only one document is expected. -/
  | severalDocuments
  /-- A node is used that has no name. -/
  | unknownAnchor
  /-- Two nodes have one name. -/
  | repeatedAnchor
  | badDocumentValue
  /-- A node stands inside of itself. -/
  | endlessDocument

namespace Failure

def category : Failure → Category
  | literalsExpected _ _ | literalCount _ _ _ | singleValueExpected _ _ | nameExpected _
  | listExpected _ _ | unknownKeys _ _ => .invalidArgument
  | optionsExpected _ | notRenderable _ | literalEscaperExpected | identifierEscaperExpected
  | rendererExpected _ | resolutionTooDeep _ => .invalidState
  | fileNotFound _ => .missingFile
  | frozenField _ => .frozenField
  | wrongType => .wrongType
  | missingAttribute => .missingAttribute
  | badValue => .badValue
  | indexOutOfRange => .indexOutOfRange
  | missingKey => .missingKey
  | badNumber => .badNumber
  | numberTooLarge => .numberTooLarge
  | tooMuchMemory => .tooMuchMemory
  | inUse => .inUse
  | badDocumentCharacter => .badDocumentCharacter
  | badDocumentToken => .badDocumentToken
  | badDocumentStructure => .badDocumentStructure
  | severalDocuments | unknownAnchor | repeatedAnchor => .badDocumentReference
  | badDocumentValue => .badDocumentValue
  | endlessDocument => .endlessDocument

private def listPurpose : Kind → String
  | .parameterize => "a list of values to parameterize"
  | .columnize => "a list of values to columnize"
  | _ => "a list of fragments"

def message? : Failure → Option String
  | literalsExpected kind seen =>
    some <| s!"\"{kind.name}\" expects a list of literal strings as its first argument, " ++
      s!"saw {seen.inspect}"
  | literalCount kind literals values =>
    some <| s!"\"{kind.name}\" expects one more literal string than values, " ++
      s!"saw {literals} strings and {values} values"
  | singleValueExpected count seen =>
    some <| "clause may only be used with a single conditional value, " ++
      s!"saw {count} values after {seen.inspect}"
  | nameExpected seen =>
    some s!"Invalid value for ident, expected string, saw {seen.inspect}"
  | listExpected kind seen =>
    some s!"{kind.name} accepts {listPurpose kind}, saw {seen.inspect}"
  | unknownKeys place keys =>
    some ("Unknown keys in '" ++ place ++ "' config section: " ++ String.intercalate ", " keys)
  | optionsExpected typeName => some s!"Render options must be a mapping, got {typeName}"
  | notRenderable seen =>
    some s!"Cannot run to_sql on non-tagged sql statement: {seen.inspect}"
  | literalEscaperExpected => some "escape must be a function"
  | identifierEscaperExpected => some "escape_id must be a function"
  | rendererExpected kindName =>
    some s!"render must be a function on tagged fragment {kindName}"
  | resolutionTooDeep limit => some s!"Fragment resolution exceeded {limit} levels"
  | fileNotFound path => some s!"Config file not found: {path}"
  | frozenField field => some ("cannot assign to field " ++ Text.quoted field)
  | _ => none

def ofObstacle : Obstacle → Failure
  | .textless => wrongType
  | .overlong => badValue

/-- A cause whose message shows a value. What is in the way of that is the cause instead. -/
def showing (cause : Value → Failure) (seen : Value) : Failure :=
  match seen.obstacle? with
  | none => cause seen
  | some obstacle => ofObstacle obstacle

end Failure

def Value.shown (value : Value) (text : String) : Except Failure String :=
  match value.obstacle? with
  | none => .ok text
  | some obstacle => .error (.ofObstacle obstacle)

def Number.Whole.ofInt (n : Int) : Except Failure Whole :=
  if h : isOverlong n.natAbs = false then .ok ⟨n, h⟩ else .error (.ofObstacle .overlong)

end SqlFragments
