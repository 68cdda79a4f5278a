import SqlFragments.Identifier.Dialect
import SqlFragments.Render.Evaluate

/-!
# Identifier escapers of dialects

Names whose segments are quoted in the way of a dialect, which an option names. What is no text
names no dialect; it is written out for the failure that says so, and that may fail itself.
-/

namespace SqlFragments.IdentifierEscaper

open Identifier

def dialectQuoting (env : Environment) (dialect : Value) : Outcome Quoting :=
  if dialect.isTruthy then
    match dialect with
    | .text s => .ofExcept (quotingOfText s)
    | dialect => do
      let _ ← plainText env dialect
      .fail .badValue
  else pure .double

/-- What quotes a segment of a name in a dialect. -/
abbrev Quoter := Environment → Value → List Char → Outcome (List Char)

def dialectQuoter : Quoter := fun env dialect segment => do
  let quoting ← dialectQuoting env dialect
  pure (quoting.quote segment)

/-- Writes a name segment by segment. The dialect is only asked for where a segment is quoted. -/
def writeInDialect (quoter : Quoter) (env : Environment) (dialect name : Value) :
    Outcome String := do
  let name ← Outcome.ofExcept (nameText name)
  let written ← (segments name.toList).mapM fun segment =>
    if segment = ['*'] then pure segment else quoter env dialect segment
  pure (String.ofList (['.'].intercalate written))

def ofQuoter (quoter : Quoter) (label : Label) (dialect : Value) : IdentifierEscaper :=
  custom label fun env name => do
    let written ← writeInDialect quoter env dialect name
    pure (.text written)

def ofDialect (label : Label) (dialect : Value) : IdentifierEscaper :=
  ofQuoter dialectQuoter label dialect

def writeName (env : Environment) (dialect? : Option Value) (name : Value) : Outcome String :=
  match dialect? with
  | some dialect => writeInDialect dialectQuoter env dialect name
  | none => .ofExcept ((nameText name).map Identifier.standard)

end SqlFragments.IdentifierEscaper
