import SqlFragments.Failure
import SqlFragments.Identifier.Basic
import SqlFragments.Text.Blank
import SqlFragments.Text.Hex

/-!
# Identifier quoting of dialects

Each dialect has its quotation marks and its way to write the closing one inside a name.
Nearly all write it twice.
-/

namespace SqlFragments.Identifier

open Text

inductive Quoting
  /-- Marks at both ends, the closing one written twice inside. -/
  | doubled (opening closing : Char)
  /-- Double quotes, with double quotes and backslashes written twice inside. -/
  | doubledWithBackslash
  /-- Backticks, with a backslash in front of backticks and backslashes and for controls. -/
  | backslashed
deriving DecidableEq, Repr

def Quoting.double : Quoting := doubled '"' '"'

def Quoting.backtick : Quoting := doubled '\x60' '\x60'

/-- A control character behind a backslash: by its letter, or by its number. -/
def controlEscape (c : Char) : List Char :=
  if c = '\x07' then ['\\', 'a']
  else if c = '\x08' then ['\\', 'b']
  else if c = '\x0c' then ['\\', 'f']
  else if c = '\n' then ['\\', 'n']
  else if c = '\r' then ['\\', 'r']
  else if c = '\t' then ['\\', 't']
  else if c = '\x0b' then ['\\', 'v']
  else '\\' :: 'x' :: hex 2 c.toNat

def Quoting.inner : Quoting → Char → List Char
  | doubled _ closing, c => if c = closing then [c, c] else [c]
  | doubledWithBackslash, c => if c = '"' ∨ c = '\\' then [c, c] else [c]
  | backslashed, c =>
    if c = '\x60' ∨ c = '\\' then ['\\', c]
    else if c.toNat < 0x20 ∨ c.toNat = 0x7F then controlEscape c
    else [c]

def Quoting.opening : Quoting → Char
  | doubled opening _ => opening
  | doubledWithBackslash => '"'
  | backslashed => '\x60'

def Quoting.closing : Quoting → Char
  | doubled _ closing => closing
  | doubledWithBackslash => '"'
  | backslashed => '\x60'

def Quoting.quote (quoting : Quoting) (segment : List Char) : List Char :=
  quoting.opening :: segment.flatMap quoting.inner ++ [quoting.closing]

def Quoting.write (quoting : Quoting) (name : String) : String :=
  String.ofList (writeWith quoting.quote name.toList)

def doubleQuoteDialects : List String :=
  ["athena", "dremio", "druid", "duckdb", "dune", "exasol", "materialize", "oracle", "postgres",
    "presto", "redshift", "risingwave", "snowflake", "sqlite", "teradata", "trino"]

def backtickDialects : List String :=
  ["databricks", "doris", "drill", "hive", "mysql", "prql", "singlestore", "solr", "spark",
    "spark2", "starrocks"]

def bracketDialects : List String :=
  ["fabric", "tableau", "tsql"]

/-- The quoting of a dialect by its name; the empty name is the default. -/
def quotingOf? (name : String) : Option Quoting :=
  if name = "" ∨ name ∈ doubleQuoteDialects then some .double
  else if name ∈ backtickDialects then some .backtick
  else if name ∈ bracketDialects then some (.doubled '[' ']')
  else if name = "dax" then some (.doubled '\'' '\'')
  else if name = "clickhouse" then some .doubledWithBackslash
  else if name = "bigquery" then some .backslashed
  else none

/-- What a setting of a dialect is given: nothing at all, a truth value, or a word. -/
inductive Given
  | nothing
  | truth
  | word (s : String)
deriving DecidableEq, Repr

/-- What the text behind the name of a setting gives. A setting that stands alone is on, and
some words are truth values. -/
def Given.ofParts : List (List Char) → Given
  | [] => truth
  | [value] =>
    let value := trim value
    if ["true", "1", "false", "0"].contains (String.ofList (value.map Char.toLower)) then truth
    else word (String.ofList value)
  | _ => nothing

structure Named where
  name : String
  settings : List (String × Given)

def Named.ofText (s : String) : Named where
  name := String.ofList (trim ((s.toList.splitOn ',').headD []))
  settings := (s.toList.splitOn ',').tail.map fun setting =>
    let parts := setting.splitOn '='
    (String.ofList (trim (parts.headD [])), Given.ofParts parts.tail)

def normalizations : List String :=
  ["LOWERCASE", "UPPERCASE", "CASE_SENSITIVE", "CASE_INSENSITIVE", "CASE_INSENSITIVE_UPPERCASE"]

/-- The settings of dialects. None of them changes how names are quoted. -/
def settingNames : List String := ["normalization_strategy", "version"]

/-- Checks the settings of a dialect. Of a setting that is given twice the later counts. -/
def checkSettings (settings : List (String × Given)) : Except Failure Unit :=
  match settings.reverse.lookup "normalization_strategy" with
  | some .truth => .error .missingAttribute
  | some (.word s) =>
    if normalizations.contains s.toUpper then checkNames else .error .badValue
  | _ => checkNames
where
  /-- Checks that all settings are known. -/
  checkNames : Except Failure Unit :=
    if settings.all fun setting => settingNames.contains setting.1 then .ok ()
    else .error .badValue

def quotingOfText (s : String) : Except Failure Quoting :=
  let dialect := Named.ofText s
  match quotingOf? dialect.name with
  | some quoting => (checkSettings dialect.settings).map fun _ => quoting
  | none => .error .badValue

end SqlFragments.Identifier
