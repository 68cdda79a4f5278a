import SqlFragments.Config
import SqlFragments.Journal.Record

/-!
# Setting up the journal

A journal has handlers that write records down: one for the console, and one for a file where
the configuration names one. Setting it up prepares the new handlers first and only then puts
them in the place of the old ones, so that a set-up that fails changes nothing.
-/

namespace SqlFragments

namespace Journal

inductive Target
  | console
  | file (path : Value)

structure Handler where
  target : Target
  structured : Bool
  level : Level

inductive Line
  | plain (text : String)
  | structured (members : List (String × Json))

end Journal

open Journal

/-- A journal: its handlers, those that were taken away and closed, its level, and whether
records are passed on to other journals. -/
structure Journal where
  handlers : List Handler := []
  closed : List Handler := []
  level : Level := 0
  propagates : Bool := true

namespace Journal

/-- Whether a file can be opened at a path, which must be a text or bytes. -/
def checkPath : Value → Except Failure Unit
  | .text s => if s.toList.contains '\x00' then .error .badValue else .ok ()
  | .bytes .fixed data => if data.contains 0 then .error .badValue else .ok ()
  | _ => .error .wrongType

/-- The handlers that a configuration asks for; `openable` says whether the file of a path can
be opened. -/
def handlersFor (openable : Value → Except Failure Unit) (config : LoggingConfig) :
    Except Failure (List Handler) := do
  let level ← levelOf config.level
  let structured := config.structured.isTruthy
  let console : Handler := ⟨.console, structured, level⟩
  if config.logFile.isTruthy then
    checkPath config.logFile
    openable config.logFile
    return [console, ⟨.file config.logFile, structured, level⟩]
  else return [console]

def setUp (openable : Value → Except Failure Unit) (config : LoggingConfig) (journal : Journal) :
    Except Failure Journal := do
  let handlers ← handlersFor openable config
  let level ← levelOf config.level
  return {
    handlers
    closed := journal.closed ++ journal.handlers
    level
    propagates := false }

def configure (openable : Value → Except Failure Unit) (config : LoggingConfig)
    (journal : Journal) : Journal × Except Failure Unit :=
  match setUp openable config journal with
  | .ok journal => (journal, .ok ())
  | .error cause => (journal, .error cause)

/-- Whether records of a level are written down. A journal without a level of its own writes
down what usually matters. -/
def accepts (journal : Journal) (level : Level) : Bool :=
  (if journal.level = 0 then usualLevel else journal.level) ≤ level

def Handler.format (env : Environment) (handler : Handler) (record : Record) : Outcome Line :=
  if handler.structured then do
    let members ← record.members env
    pure (.structured members)
  else do
    let text ← record.line env
    pure (.plain text)

def handlersAt (journal : Journal) (level : Level) : List Handler :=
  if journal.accepts level then journal.handlers.filter fun handler => handler.level ≤ level
  else []

end Journal

end SqlFragments
