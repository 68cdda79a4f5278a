/-!
# Dates and times of day

Dates of the Gregorian calendar, carried back to year 1, from year 1 to year 9999, with times
of day to the microsecond and an optional distance from universal time.
-/

namespace SqlFragments.Calendar

def isLeap (year : Nat) : Bool :=
  year % 4 == 0 && (year % 100 != 0 || year % 400 == 0)

def daysInMonth (year month : Nat) : Nat :=
  if month = 2 then (if isLeap year then 29 else 28)
  else if month = 4 ∨ month = 6 ∨ month = 9 ∨ month = 11 then 30
  else 31

/-- A date of the years 1 to 9999. -/
structure Date where
  year : Nat
  month : Nat
  day : Nat
  year_range : 1 ≤ year ∧ year ≤ 9999
  month_range : 1 ≤ month ∧ month ≤ 12
  day_range : 1 ≤ day ∧ day ≤ daysInMonth year month
deriving DecidableEq, Repr

def Date.ofNumbers? (year month day : Nat) : Option Date :=
  if hy : 1 ≤ year ∧ year ≤ 9999 then
    if hm : 1 ≤ month ∧ month ≤ 12 then
      if hd : 1 ≤ day ∧ day ≤ daysInMonth year month then
        some ⟨year, month, day, hy, hm, hd⟩
      else none
    else none
  else none

structure TimeOfDay where
  hour : Nat
  minute : Nat
  second : Nat
  microsecond : Nat
  hour_lt : hour < 24
  minute_lt : minute < 60
  second_lt : second < 60
  microsecond_lt : microsecond < 1000000
deriving DecidableEq, Repr

def TimeOfDay.ofNumbers? (hour minute second microsecond : Nat) : Option TimeOfDay :=
  if hh : hour < 24 then
    if hm : minute < 60 then
      if hs : second < 60 then
        if hu : microsecond < 1000000 then
          some ⟨hour, minute, second, microsecond, hh, hm, hs, hu⟩
        else none
      else none
    else none
  else none

/-- A distance from universal time of less than a day, in microseconds, east positive. -/
structure UtcOffset where
  microseconds : Int
  range : -86400000000 < microseconds ∧ microseconds < 86400000000
deriving DecidableEq, Repr

def UtcOffset.ofSeconds? (seconds : Int) : Option UtcOffset :=
  if h : -86400 < seconds ∧ seconds < 86400 then some ⟨seconds * 1000000, by omega⟩ else none

/-- The whole seconds of an offset; what is left over counts onwards from them. -/
def UtcOffset.seconds (offset : UtcOffset) : Int :=
  offset.microseconds / 1000000

/-- A date with a time of day. Without an offset it says no place on earth. -/
structure DateTime where
  date : Date
  time : TimeOfDay
  offset : Option UtcOffset
deriving DecidableEq, Repr

end SqlFragments.Calendar
