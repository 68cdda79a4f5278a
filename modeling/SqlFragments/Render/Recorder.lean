import SqlFragments.Render.Evaluate

/-!
# Recording escapers

Functions of the user that write values or names and keep a record of every call.
-/

namespace SqlFragments

namespace LiteralEscaper

def recording (label : Label) (write : Environment → Value → Value → Outcome Value) :
    LiteralEscaper :=
  custom label fun env value timezone => do
    Outcome.emit (.literalEscaped value timezone)
    write env value timezone

def recordingStandard (label : Label) : LiteralEscaper :=
  recording label literal

def recordingZone (label : Label) : LiteralEscaper :=
  recording label fun env value timezone => do
    let zone ← plainText env timezone
    let written ← literal env value timezone
    let text ← written.expectText
    pure (.text ("<" ++ zone ++ ">" ++ text))

def recordingConstant (label : Label) (answer : Value) : LiteralEscaper :=
  recording label fun _ _ _ => pure answer

end LiteralEscaper

namespace IdentifierEscaper

def recording (label : Label) (write : Value → Outcome Value) : IdentifierEscaper :=
  custom label fun _ name => do
    Outcome.emit (.identifierEscaped name)
    write name

/-- A name between backticks: backticks are written twice, and every point stands between the
backticks of its neighbours. -/
def betweenBackticks (name : String) : String :=
  String.ofList ('\x60' :: name.toList.flatMap (fun c =>
    if c = '\x60' then ['\x60', '\x60'] else if c = '.' then ['\x60', '.', '\x60'] else [c]) ++
    ['\x60'])

/-- The text whose parts are replaced by others. In dates something else is replaced. -/
def replaceableText : Value → Except Failure String
  | .dateTime _ | .date _ => .error .wrongType
  | name => nameText name

def recordingBackticks (label : Label) : IdentifierEscaper :=
  recording label fun name =>
    .ofExcept ((replaceableText name).map fun s => .text (betweenBackticks s))

def recordingConstant (label : Label) (answer : Value) : IdentifierEscaper :=
  recording label fun _ => pure answer

end IdentifierEscaper

end SqlFragments
