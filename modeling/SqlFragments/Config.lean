import SqlFragments.Render.Dialect
import SqlFragments.Render.Options
import SqlFragments.Yaml.Document

/-!
# Configuration

A configuration document has two sections: the settings of renders and those of the journal.
A section that is left out, or that counts as false, is empty. Keys that a section does not
know are refused, all of them at once; what is not given keeps its default, and a value is
taken as it is, whatever its type.
-/

namespace SqlFragments

structure RenderConfig where
  withParameters : Value := .bool true
  timezone : Value := .text "Z"
  preparing : Value := .bool false
  method : Value := .null
  identifierDialect : Value := .null

structure LoggingConfig where
  level : Value := .text "INFO"
  structured : Value := .bool false
  logFile : Value := .null

structure Config where
  render : RenderConfig := {}
  logging : LoggingConfig := {}

namespace RenderConfig

def names : List String :=
  ["with_parameters", "timezone", "preparing", "method", "identifier_dialect"]

def ofEntries (entries : Entries Value) : RenderConfig where
  withParameters := (entries.get? (.text "with_parameters")).getD (.bool true)
  timezone := (entries.get? (.text "timezone")).getD (.text "Z")
  preparing := (entries.get? (.text "preparing")).getD (.bool false)
  method := (entries.get? (.text "method")).getD .null
  identifierDialect := (entries.get? (.text "identifier_dialect")).getD .null

/-- The settings of some names, which must be known. -/
def ofFields (given : List (String × Value)) : Except Failure RenderConfig :=
  if given.all fun field => names.contains field.1 then
    .ok (ofEntries (given.map fun (name, value) => (.text name, value)))
  else .error .wrongType

def fields (config : RenderConfig) : List (String × Value) :=
  [("with_parameters", config.withParameters), ("timezone", config.timezone),
    ("preparing", config.preparing), ("method", config.method),
    ("identifier_dialect", config.identifierDialect)]

/-- The render context that the settings describe. With a dialect, names are written by an
escaper of that dialect, which gets the given label. -/
def toContext (label : Label) (config : RenderConfig) : Context :=
  let settings : Entries Setting :=
    [(.text "with_parameters", .value config.withParameters),
      (.text "timezone", .value config.timezone),
      (.text "preparing", .value config.preparing),
      (.text "method", .value config.method)]
  Context.ofFields <|
    if config.identifierDialect.isTruthy then
      settings ++ [(.text "escape_id",
        .identifierEscaper (.ofDialect label config.identifierDialect))]
    else settings

end RenderConfig

namespace LoggingConfig

def names : List String := ["level", "structured", "log_file"]

def ofEntries (entries : Entries Value) : LoggingConfig where
  level := (entries.get? (.text "level")).getD (.text "INFO")
  structured := (entries.get? (.text "structured")).getD (.bool false)
  logFile := (entries.get? (.text "log_file")).getD .null

def ofFields (given : List (String × Value)) : Except Failure LoggingConfig :=
  if given.all fun field => names.contains field.1 then
    .ok (ofEntries (given.map fun (name, value) => (.text name, value)))
  else .error .wrongType

def fields (config : LoggingConfig) : List (String × Value) :=
  [("level", config.level), ("structured", config.structured), ("log_file", config.logFile)]

end LoggingConfig

namespace Config

/-- What a section names: the keys of a mapping, the members of a list, the characters of a
text. Other values name nothing and are refused, and so is a member that cannot be a key. -/
def namesIn : Value → Except Failure (List Value)
  | .dict _ entries => .ok (entries.map (·.1))
  | .list _ items => if items.all Value.isHashable then .ok items else .error .wrongType
  | .text s => .ok (s.toList.map fun c => .text (String.singleton c))
  | _ => .error .wrongType

def isKnown (known : List String) : Value → Bool
  | .text s => known.contains s
  | _ => false

def sorted (texts : List String) : List String :=
  (texts.mergeSort fun a b => decide (a ≤ b)).eraseDups

/-- Checks that a section only names what it knows. What it does not know is listed in the
failure, which takes texts. -/
def checkNames (known : List String) (place : String) (names : List Value) :
    Except Failure Unit :=
  match names.filter fun name => !isKnown known name with
  | [] => .ok ()
  | unknown =>
    match unknown.mapM Value.text? with
    | some texts => .error (.unknownKeys place (sorted texts))
    | none => .error .wrongType

def entriesOf (known : List String) (place : String) (data : Value) :
    Except Failure (Entries Value) :=
  if data.isTruthy then do
    checkNames known place (← namesIn data)
    match data with
    | .dict _ entries => return entries
    | _ => throw .wrongType
  else .ok []

def ofDocument (document : Value) : Except Failure Config :=
  let sections : Except Failure (Entries Value) :=
    if document.isTruthy then
      match document with
      | .dict _ entries => .ok entries
      | _ => .error .missingAttribute
    else .ok []
  do
    let sections ← sections
    let data (place : String) : Value := (sections.get? (.text place)).getD .null
    let render ← entriesOf RenderConfig.names "render" (data "render")
    let logging ← entriesOf LoggingConfig.names "logging" (data "logging")
    return ⟨RenderConfig.ofEntries render, LoggingConfig.ofEntries logging⟩

/-- The configuration in a document, by way of what reads its value. -/
def parseWith (load : String → Except Failure Value) (document : String) :
    Except Failure Config := do
  ofDocument (← load document)

def parse (document : String) : Except Failure Config :=
  parseWith Yaml.valueOf document

def missing (path : String) : Except Failure Config :=
  .error (.fileNotFound path)

def isDefault (config : Config) : Bool :=
  let agree (given usual : List (String × Value)) : Bool :=
    (given.zip usual).all fun (a, b) => a.2.sameKey b.2
  agree config.render.fields ({} : RenderConfig).fields &&
    agree config.logging.fields ({} : LoggingConfig).fields

end Config

end SqlFragments
