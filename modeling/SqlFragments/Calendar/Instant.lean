import SqlFragments.Calendar.Date
import SqlFragments.Text.Digit

/-!
# Instants

A point of time is counted in microseconds from the first of January of year 1. Instants of
the years 1 to 9999 have a date and a time of day; counting goes on past both ends.
-/

namespace SqlFragments.Calendar

open Text

def daysBeforeYear (year : Nat) : Nat :=
  let past := year - 1
  365 * past + past / 4 - past / 100 + past / 400

def daysBeforeMonth (year : Nat) : Nat → Nat
  | 0 => 0
  | 1 => 0
  | month + 2 => daysBeforeMonth year (month + 1) + daysInMonth year (month + 1)

/-- The days from the first of January of year 1. -/
def dayNumber (year month day : Nat) : Nat :=
  daysBeforeYear year + daysBeforeMonth year month + (day - 1)

def Date.dayNumber (date : Date) : Nat :=
  Calendar.dayNumber date.year date.month date.day

def TimeOfDay.microseconds (time : TimeOfDay) : Nat :=
  ((time.hour * 60 + time.minute) * 60 + time.second) * 1000000 + time.microsecond

/-- Microseconds from the start of year 1. -/
abbrev Instant := Int

namespace Instant

def second : Int := 1000000

def minute : Int := 60 * second

def day : Int := 24 * 60 * minute

def first : Instant := 0

def last : Instant := 3652059 * day - 1

def onCalendar (t : Instant) : Bool :=
  first ≤ t && t ≤ last

def ofDate (date : Date) : Instant :=
  date.dayNumber * day

def ofWallClock (moment : DateTime) : Instant :=
  ofDate moment.date + moment.time.microseconds

/-- The point of time of a date and time; without an offset it is taken as universal time. -/
def ofDateTime (moment : DateTime) : Instant :=
  ofWallClock moment - moment.offset.elim 0 (·.microseconds)

end Instant

/-- The year of a day and the days of that year before it. -/
def yearOfDay (days : Nat) : Nat × Nat :=
  let cycles := days / 146097
  let days := days % 146097
  let centuries := min (days / 36524) 3
  let days := days - 36524 * centuries
  let leaps := days / 1461
  let days := days % 1461
  let years := min (days / 365) 3
  (400 * cycles + 100 * centuries + 4 * leaps + years + 1, days - 365 * years)

def monthOfDay (year : Nat) : List Nat → Nat → Nat × Nat
  | [], days => (12, days + 1)
  | month :: later, days =>
    if days < daysInMonth year month then (month, days + 1)
    else monthOfDay year later (days - daysInMonth year month)

def dateOfDay (days : Nat) : Nat × Nat × Nat :=
  let (year, rest) := yearOfDay days
  (year, monthOfDay year [1, 2, 3, 4, 5, 6, 7, 8, 9, 10, 11, 12] rest)

/-- An instant as date and time to the millisecond; what is less is cut off. -/
def Instant.text (t : Instant) : String :=
  let (year, month, day) := dateOfDay (t / Instant.day).toNat
  let millis := (t % Instant.day).toNat / 1000
  let clock := millis / 1000
  String.ofList (padded 4 year ++ '-' :: padded 2 month ++ '-' :: padded 2 day ++
    ' ' :: padded 2 (clock / 3600) ++ ':' :: padded 2 (clock / 60 % 60) ++
    ':' :: padded 2 (clock % 60) ++ '.' :: padded 3 (millis % 1000))

end SqlFragments.Calendar
