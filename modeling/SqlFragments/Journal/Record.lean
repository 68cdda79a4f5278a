import SqlFragments.Journal.Level
import SqlFragments.Journal.Message
import SqlFragments.Render.Evaluate

/-!
# Records of the journal

A record says what happened, where and how much it matters, and may carry an exception and
extra fields. It is written as a line of plain text or as named members. The time of a record
and the number of its source line are left to whoever writes it down.
-/

namespace SqlFragments.Journal

structure Thrown where
  className : String
  text : String

structure Record where
  logger : String
  level : Level
  message : String
  arguments : List Value := []
  modulePath : String
  functionName : Value := .null
  exception : Option Thrown := none
  extra : List (String × Value) := []

/-- The exceptions of this library, which are shown with the place they come from. -/
def Thrown.ownClasses : List String := ["SQLStringError", "InvalidArgument", "InvalidState"]

def Thrown.shownClass (thrown : Thrown) : String :=
  if ownClasses.contains thrown.className then "sql_strings.errors." ++ thrown.className
  else thrown.className

/-- The exceptions that say so when they have no text. -/
def Thrown.detailedClasses : List String := ["SyntaxError", "IndentationError", "TabError"]

/-- The text of an exception; a missing key is shown as in a message. -/
def Thrown.shownText (thrown : Thrown) : String :=
  if thrown.className = "KeyError" then Text.quoted thrown.text
  else if thrown.text.isEmpty ∧ detailedClasses.contains thrown.className then
    "<no detail available>"
  else thrown.text

def Thrown.shown (thrown : Thrown) : String :=
  if thrown.shownText.isEmpty then thrown.shownClass
  else thrown.shownClass ++ ": " ++ thrown.shownText

namespace Record

def text (env : Environment) (record : Record) : Outcome String :=
  formatted (plainText env) record.message record.arguments

def line (env : Environment) (record : Record) : Outcome String := do
  let message ← record.text env
  let line := String.intercalate " - " ["", record.logger, levelName record.level, message]
  pure (match record.exception with
    | none => line
    | some thrown => line ++ (if line.endsWith "\n" then "" else "\n") ++ thrown.shown)

/-- The module of a path: the name of its file without the ending. A name that starts with the
ending keeps it. -/
def moduleName (path : String) : String :=
  let file := (path.toList.splitOn '/').getLastD []
  String.ofList (if file.all (· == '.') then file ++ ".py".toList else file)

/-- The members of a record in order, extra fields included, which take the place of members
with their names. Time and source line are only held a place. -/
def fields (record : Record) (message : String) : List (String × Value) :=
  let own : List (String × Value) :=
    [("timestamp", .null), ("level", .text (levelName record.level)),
      ("logger", .text record.logger), ("message", .text message),
      ("module", .text (moduleName record.modulePath)), ("function", record.functionName),
      ("line", .null)]
  let thrown := record.exception.elim [] fun thrown => [("exception", Value.text thrown.shown)]
  record.extra.foldl (fun fields (name, value) => assignField fields name value) (own ++ thrown)

def members (env : Environment) (record : Record) : Outcome (List (String × Json)) := do
  let message ← record.text env
  (record.fields message).mapM fun (name, value) => do
    let tree ← json env value
    pure (name, tree)

def settingFields (withParameters timezone method : Value) : List (String × Value) :=
  [("with_parameters", withParameters), ("timezone", timezone), ("method", method)]

/-- The record of a fragment that is about to be rendered. It carries the settings under
which that happens. -/
def ofEvent? : Event → Option Record
  | .rendering kindName withParameters timezone method =>
    some {
      logger := "sql_strings.evaluator.evaluator"
      level := debugLevel
      message := "Rendering " ++ kindName ++ " fragment"
      modulePath := "evaluator"
      functionName := .text "to_sql"
      extra := settingFields (.bool withParameters) timezone method }
  | _ => none

end Record

end SqlFragments.Journal
