import SqlFragments.Calendar.Instant
import SqlFragments.Calendar.Zone
import SqlFragments.Failure
import SqlFragments.Text.Hex

/-!
# Literals

Single values as text of a statement. Texts stand between apostrophes with a backslash in
front of what could end or change them, numbers are written in full without an exponent,
dates as the wall clock of a time zone, and bytes in hexadecimal. A whole number that is too long to
be written has no literal.
-/

namespace SqlFragments.Literal

open Text Number Calendar

/-- The letter that stands behind a backslash for a character that is not written as
itself. -/
def escapeLetter? : Char → Option Char
  | '\x00' => some '0'
  | '\x08' => some 'b'
  | '\t' => some 't'
  | '\n' => some 'n'
  | '\r' => some 'r'
  | '\x1a' => some 'Z'
  | '"' => some '"'
  | '\'' => some '\''
  | '\\' => some '\\'
  | _ => none

def escaped : List Char → List Char
  | [] => []
  | c :: rest =>
    match escapeLetter? c with
    | some letter => '\\' :: letter :: escaped rest
    | none => c :: escaped rest

def needsEscape (cs : List Char) : Bool :=
  cs.any fun c => (escapeLetter? c).isSome

/-- A text between apostrophes. One that needs no escape is taken over as it is. -/
def quote (s : String) : String :=
  if needsEscape s.toList then String.ofList ('\'' :: escaped s.toList ++ ['\''])
  else "'" ++ s ++ "'"

theorem escaped_eq_self {cs : List Char} (h : needsEscape cs = false) : escaped cs = cs := by
  induction cs with
  | nil => rfl
  | cons c rest ih =>
    simp only [needsEscape, List.any_cons, Bool.or_eq_false_iff] at h
    have hc : escapeLetter? c = none := by simpa using h.1
    simp [escaped, hc, ih (by simpa [needsEscape] using h.2)]

theorem toList_quote (s : String) : (quote s).toList = '\'' :: escaped s.toList ++ ['\''] := by
  unfold quote
  split
  · simp
  · next h => simp [escaped_eq_self (by simpa using h)]

def wholeText (n : Int) : Except Failure String :=
  (Whole.ofInt n).map Whole.text

def infinityText (negative : Bool) : String :=
  if negative then "'-Infinity'" else "'Infinity'"

/-- A decimal number in full: a whole one without a point, any other with all its places. -/
def decimalText : Decimal → Except Failure String
  | .finite negative coefficient exponent =>
    match Decimal.toNat? coefficient exponent with
    | some size => wholeText (withSign negative size)
    | none => .ok (String.ofList (Decimal.plain negative coefficient exponent))
  | .infinite negative => .ok (infinityText negative)
  | .nan _ _ _ => .ok "'NaN'"

/-- A floating point number in full: a whole one exactly, any other with its shortest
digits. -/
def doubleText : Double → Except Failure String
  | .finite negative mantissa exponent =>
    match Double.toNat? mantissa exponent with
    | some size => wholeText (withSign negative size)
    | none =>
      let (digits, place) := Double.shortest mantissa exponent
      decimalText (.finite negative digits place)
  | .infinite negative => .ok (infinityText negative)
  | .nan => .ok "'NaN'"

def bytesText (data : List UInt8) : String :=
  String.ofList ('X' :: '\'' :: hexBytes data ++ ['\''])

/-- The end of the calendar that an instant beyond it is moved to, by the year it started
from. -/
def calendarEnd (year : Nat) : Instant :=
  if year > 1 then Instant.last else Instant.first

/-- An instant moved by some microseconds, where both must lie on the calendar. -/
def shifted? (t : Instant) (ahead : Int) : Option Instant :=
  let moved := t + ahead
  if t.onCalendar && moved.onCalendar then some moved else none

/-- The wall clock that is some microseconds ahead, at an instant that began in some year. -/
def clockText (year : Nat) (t : Instant) (ahead : Int) : String :=
  ((shifted? t ahead).getD (calendarEnd year)).text

def zoneOf : Value → Zone
  | .text s => Zone.ofText s
  | _ => .unknown

def dateText (hostMinutes : Rat) (timezone : Value) (d : Date) : String :=
  clockText d.year (Instant.ofDate d) ((zoneOf timezone).microseconds hostMinutes)

def dateTimeText (hostMinutes : Rat) (timezone : Value) (m : DateTime) : String :=
  clockText m.date.year (Instant.ofDateTime m) ((zoneOf timezone).microseconds hostMinutes)

/-- The literal of a single value, which may be too long; containers, objects and fragments have
none of their own. -/
def scalar? (hostMinutes : Rat) (timezone : Value) : Value → Option (Except Failure String)
  | .null => some (.ok "NULL")
  | .bool b => some (.ok (if b then "true" else "false"))
  | .int n => some (wholeText n)
  | .float _ x => some (doubleText x)
  | .decimal _ x => some (decimalText x)
  | .dateTime m => some (.ok (quote (dateTimeText hostMinutes timezone m)))
  | .date d => some (.ok (quote (dateText hostMinutes timezone d)))
  | .bytes _ data => some (.ok (bytesText data))
  | .text s => some (.ok (quote s))
  | _ => none

end SqlFragments.Literal
