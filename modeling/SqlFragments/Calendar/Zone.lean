import SqlFragments.Number.Double
import SqlFragments.Text.Blank

/-!
# Time zones

A time zone is given as text: universal time, the zone of the host, or an offset of hours and
perhaps minutes that may stand anywhere in the text.
-/

namespace SqlFragments.Calendar

open Text Number

/-- A distance from universal time in hours and minutes, as written. -/
structure Offset where
  negative : Bool
  hours : Nat
  minutes : Nat
deriving DecidableEq, Repr

namespace Offset

/-- Two decimal digits of any script in front, and what follows them. -/
def twoDigits? : List Char → Option (Nat × List Char)
  | a :: b :: rest =>
    match digitValue? a, digitValue? b with
    | some tens, some ones => some (10 * tens + ones, rest)
    | _, _ => none
  | _ => none

/-- The minutes that follow the hours, directly or after a colon; none written is zero. -/
def minutesAfter (rest : List Char) : Nat :=
  let rest := match rest with
    | ':' :: later => later
    | same => same
  ((twoDigits? rest).map (·.1)).getD 0

/-- The offset that starts at the head of a text: a sign, where a blank character counts as
plus, and two digits. -/
def here? : List Char → Option Offset
  | [] => none
  | c :: rest =>
    if c = '+' ∨ c = '-' ∨ isBlank c then
      (twoDigits? rest).map fun (hours, later) => ⟨c = '-', hours, minutesAfter later⟩
    else none

def leftmost? : List Char → Option Offset
  | [] => none
  | c :: rest =>
    match here? (c :: rest) with
    | some offset => some offset
    | none => leftmost? rest

/-- The offset in minutes as a rounded number: the hours plus the sixtieth part of the
minutes, times sixty, each step rounded. -/
def asDouble (offset : Offset) : Double :=
  let sixty := Double.ofNat 60
  let hours := (Double.ofNat offset.hours).add ((Double.ofNat offset.minutes).div sixty)
  let size := hours.mul sixty
  if offset.negative then size.negate else size

end Offset

def microsecondsOf (minutes : Rat) : Int :=
  nearest (minutes * 60000000)

def Offset.microseconds (offset : Offset) : Int :=
  offset.asDouble.toRat?.elim 0 microsecondsOf

inductive Zone
  | universal
  | host
  | shifted (offset : Offset)
  | unknown
deriving DecidableEq, Repr

/-- The zone of a text. A text without an offset is not a zone. -/
def Zone.ofText (s : String) : Zone :=
  if s = "Z" then universal
  else if s = "local" then host
  else match Offset.leftmost? s.toList with
    | some offset => shifted offset
    | none => unknown

def Zone.rounded? : Zone → Option Double
  | universal => some (.zero false)
  | shifted offset => some offset.asDouble
  | _ => none

/-- The microseconds that clocks of a zone are ahead of universal time. A text that is no zone
counts as universal time. -/
def Zone.microseconds (hostMinutes : Rat) : Zone → Int
  | universal => 0
  | host => microsecondsOf hostMinutes
  | shifted offset => offset.microseconds
  | unknown => 0

end SqlFragments.Calendar
