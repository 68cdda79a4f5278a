import SqlFragments.Failure

/-!
# Levels of the journal

How much a journal writes down is a level, and every record has one. Some levels have names,
and configurations name them in either case.
-/

namespace SqlFragments.Journal

abbrev Level := Int

def debugLevel : Level := 10

/-- The level that decides where a journal has none of its own. -/
def usualLevel : Level := 30

def levelNames : List (Level × String) :=
  [(50, "CRITICAL"), (40, "ERROR"), (30, "WARNING"), (20, "INFO"), (10, "DEBUG"), (0, "NOTSET")]

def levelName (level : Level) : String :=
  ((levelNames.lookup level).getD ("Level " ++ toString level))

/-- What a word in a configuration names: a level, or something else that is no level but a
text or a table. -/
inductive Word
  | level (level : Level)
  | text
  | table
deriving DecidableEq, Repr

def words : List (String × Word) :=
  [("CRITICAL", .level 50), ("FATAL", .level 50), ("ERROR", .level 40), ("WARNING", .level 30),
    ("WARN", .level 30), ("INFO", .level 20), ("DEBUG", .level 10), ("NOTSET", .level 0),
    ("BASIC_FORMAT", .text), ("_STYLES", .table)]

def capitals (c : Char) : List Char :=
  if c = 'ı' then ['I']
  else if c = 'ſ' then ['S']
  else if c = 'ﬅ' ∨ c = 'ﬆ' then ['S', 'T']
  else [c.toUpper]

def inCapitals (s : String) : String :=
  String.ofList (s.toList.flatMap capitals)

/-- What is named in a configuration. A word that names nothing stands for the level of plain
information. -/
def wordOf : Value → Except Failure Word
  | .text s => .ok ((words.lookup (inCapitals s)).getD (.level 20))
  | .bytes .fixed _ | .bytes (.changeable _) _ => .error .wrongType
  | _ => .error .missingAttribute

def Word.toLevel : Word → Except Failure Level
  | .level known => .ok known
  | .text => .error .badValue
  | .table => .error .wrongType

def levelOf (v : Value) : Except Failure Level := do
  (← wordOf v).toLevel

end SqlFragments.Journal
