import SqlFragments.Journal.Setup

/-!
# Handlers of the journal

Setting up a journal makes new handlers, gives them a level, opens a file for one of them, takes
the old handlers away and closes them, and puts the new ones in their place. Most of these steps
can fail, and what was done before the failure stays done. Two handlers that look alike may be
two, so handlers are known by the place at which they were made.
-/

namespace SqlFragments.Journal

/-- All handlers that were ever made, and where those stand that a journal has and those that were
closed. -/
structure Registry where
  made : List Handler := []
  attached : List Nat := []
  closed : List Nat := []
  level : Level := 0
  propagates : Bool := true

/-- A call of the set-up: what it asks for, and which files can be opened at its time. -/
structure Call where
  openable : Value → Except Failure Unit
  config : LoggingConfig

def Call.opening (call : Call) : Except Failure Unit := do
  checkPath call.config.logFile
  call.openable call.config.logFile

namespace Registry

/-- Work on the handlers. When it fails, what was done so far is not undone. -/
abbrev Task := EStateM Failure Registry

def attempt {α : Type} : Except Failure α → Task α
  | .ok a => pure a
  | .error cause => throw cause

def setHandlerLevel (place : Nat) (word : Word) : Task Unit := do
  let level ← attempt word.toLevel
  modify fun registry =>
    { registry with made := registry.made.modify place fun handler => { handler with level } }

/-- Makes a handler, which has no level at first. -/
def make (target : Target) (structured : Bool) (word : Word) : Task Nat := do
  let place := (← get).made.length
  modify fun registry => { registry with made := registry.made ++ [⟨target, structured, 0⟩] }
  setHandlerLevel place word
  return place

def dismiss (place : Nat) : Task Unit := do
  modify fun registry => { registry with attached := registry.attached.erase place }
  modify fun registry => { registry with closed := registry.closed ++ [place] }

def attach (place : Nat) : Task Unit :=
  modify fun registry =>
    if place ∈ registry.attached then registry
    else { registry with attached := registry.attached ++ [place] }

def replaceWith (places : List Nat) : Task Unit := do
  (← get).attached.forM dismiss
  places.forM attach

def setLevel (word : Word) : Task Unit := do
  let level ← attempt word.toLevel
  modify fun registry => { registry with level }

def prepare (call : Call) (word : Word) : Task (List Nat) := do
  let structured := call.config.structured.isTruthy
  let console ← make .console structured word
  if call.config.logFile.isTruthy then
    attempt call.opening
    let file ← make (.file call.config.logFile) structured word
    return [console, file]
  else return [console]

def setUp (call : Call) : Task Unit := do
  let word ← attempt (wordOf call.config.level)
  let places ← prepare call word
  replaceWith places
  setLevel word
  modify fun registry => { registry with propagates := false }

def configure (registry : Registry) (call : Call) : Registry × Except Failure Unit :=
  match (setUp call).run registry with
  | .ok () registry => (registry, .ok ())
  | .error cause registry => (registry, .error cause)

def handlers (registry : Registry) : List Handler :=
  registry.attached.filterMap (registry.made[·]?)

/-- The journal, where handlers that look alike are not told apart. -/
def journal (registry : Registry) : Journal where
  handlers := registry.handlers
  closed := registry.closed.filterMap (registry.made[·]?)
  level := registry.level
  propagates := registry.propagates

end Registry

end SqlFragments.Journal
