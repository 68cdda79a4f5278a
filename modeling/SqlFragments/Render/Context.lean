import SqlFragments.Identifier.Basic
import SqlFragments.Outcome

/-!
# Render contexts

What a render depends on besides the fragment: how literals and identifiers are written,
whether values become placeholders, and settings that are handed on.
-/

namespace SqlFragments

/-- What a render depends on besides fragment and context: the offset of the host's clock in
minutes, and the texts that templates remember for being written out inside values. Finding
out whether a template remembers its text may fail. -/
structure Environment where
  hostMinutes : Rat := 0
  remembered : Label → Except Failure (Option Value) := fun _ => .ok none

/-- How values are written as literals, given the value and the time zone: in the way of the
library, by a function of the user, or not at all, where something else was given. -/
inductive LiteralEscaper
  | standard
  | custom (label : Label) (write : Environment → Value → Value → Outcome Value)
  | broken (given : Value)

inductive IdentifierEscaper
  | standard
  | custom (label : Label) (write : Environment → Value → Outcome Value)
  | broken (given : Value)

def LiteralEscaper.isCallable : LiteralEscaper → Bool
  | broken _ => false
  | _ => true

def IdentifierEscaper.isCallable : IdentifierEscaper → Bool
  | broken _ => false
  | _ => true

namespace IdentifierEscaper

/-- The text of a name. Only texts are names; bytes can be split too, but not at a text. -/
def nameText : Value → Except Failure String
  | .text s => .ok s
  | .bytes .fixed _ | .bytes (.changeable _) _ => .error .wrongType
  | _ => .error .missingAttribute

def write (escaper : IdentifierEscaper) (env : Environment) (name : Value) : Outcome Value :=
  match escaper with
  | standard => .ofExcept ((nameText name).map fun s => .text (Identifier.standard s))
  | custom _ call => call env name
  | broken _ => .fail .wrongType

end IdentifierEscaper

structure Context where
  escape : LiteralEscaper := .standard
  escapeId : IdentifierEscaper := .standard
  withParameters : Bool := true
  timezone : Value := .text "Z"
  preparing : Bool := false
  method : Value := .null

namespace Context

/-- The settings under which a fragment inside a value or a message is written: all defaults,
with every value as a literal. -/
def inlined : Context := { withParameters := false }

/-- A fragment is only rendered when both escapers can be called and the fragment says how. -/
def allow (context : Context) (f : Fragment) : Except Failure Unit :=
  if !context.escape.isCallable then .error .literalEscaperExpected
  else if !context.escapeId.isCallable then .error .identifierEscaperExpected
  else if f.isRenderable then .ok ()
  else .error (.rendererExpected f.kindName)

def announcement (context : Context) (kindName : String) : Event :=
  .rendering kindName context.withParameters context.timezone context.method

def enter (context : Context) (f : Fragment) : Outcome Unit := do
  Outcome.ofExcept (context.allow f)
  Outcome.emit (context.announcement f.kindName)

end Context

end SqlFragments
