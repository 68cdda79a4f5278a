import Mathlib.Order.Monotone.Basic
import SqlFragments.Calendar.Instant

/-!
# Days and dates

The days of the calendar are counted without gaps: years and months follow one another, every day
number belongs to one date, and a later date has a greater number.
-/

namespace SqlFragments.Calendar

/-! ## Years -/

def daysInYear (year : Nat) : Nat := if isLeap year then 366 else 365

private theorem isLeap_iff (year : Nat) :
    isLeap year = true ↔ 4 ∣ year ∧ (¬ 100 ∣ year ∨ 400 ∣ year) := by
  simp [isLeap, Nat.dvd_iff_mod_eq_zero]

private theorem daysInYear_eq (year : Nat) :
    daysInYear year = 365 + (if 4 ∣ year then 1 else 0) - (if 100 ∣ year then 1 else 0) +
      (if 400 ∣ year then 1 else 0) := by
  have hleap := isLeap_iff year
  have h100 : 100 ∣ year → 4 ∣ year := Nat.dvd_trans (by decide)
  have h400 : 400 ∣ year → 100 ∣ year := Nat.dvd_trans (by decide)
  rw [daysInYear]
  split_ifs <;> simp_all

theorem daysBeforeYear_succ {year : Nat} (h : 1 ≤ year) :
    daysBeforeYear (year + 1) = daysBeforeYear year + daysInYear year := by
  obtain ⟨past, rfl⟩ := Nat.exists_eq_add_of_le' h
  have hless : past / 100 ≤ past / 4 := Nat.div_le_div_left (by decide) (by decide)
  have h100 : 100 ∣ past + 1 → 4 ∣ past + 1 := Nat.dvd_trans (by decide)
  simp only [daysBeforeYear, daysInYear_eq, Nat.add_sub_cancel, Nat.succ_div]
  generalize past / 4 = q4, past / 100 = q100, past / 400 = q400 at *
  split_ifs <;> omega

theorem daysBeforeYear_mono : Monotone daysBeforeYear := by
  apply monotone_nat_of_le_succ
  intro year
  cases year with
  | zero => decide
  | succ past =>
    rw [daysBeforeYear_succ (Nat.le_add_left 1 past)]
    exact Nat.le_add_right _ _

private theorem daysBeforeYear_rounds {cycles centuries leaps years : Nat}
    (hcenturies : centuries ≤ 3) (hleaps : leaps ≤ 24) (hyears : years ≤ 3) :
    daysBeforeYear (400 * cycles + 100 * centuries + 4 * leaps + years + 1) =
      146097 * cycles + 36524 * centuries + 1461 * leaps + 365 * years := by
  have h4 : (400 * cycles + 100 * centuries + 4 * leaps + years) / 4 =
      100 * cycles + 25 * centuries + leaps := by omega
  have h100 : (400 * cycles + 100 * centuries + 4 * leaps + years) / 100 =
      4 * cycles + centuries := by omega
  have h400 : (400 * cycles + 100 * centuries + 4 * leaps + years) / 400 = cycles := by omega
  simp only [daysBeforeYear, Nat.add_sub_cancel, h4, h100, h400]
  omega

private theorem daysInYear_rounds {cycles centuries leaps years : Nat}
    (hcenturies : centuries ≤ 3) (hleaps : leaps ≤ 24) (hyears : years ≤ 3) :
    daysInYear (400 * cycles + 100 * centuries + 4 * leaps + years + 1) =
      if years = 3 ∧ (leaps < 24 ∨ centuries = 3) then 366 else 365 := by
  have h4 : 4 ∣ 400 * cycles + 100 * centuries + 4 * leaps + years + 1 ↔ years = 3 := by omega
  have h100 : 100 ∣ 400 * cycles + 100 * centuries + 4 * leaps + years + 1 ↔
      years = 3 ∧ leaps = 24 := by omega
  have h400 : 400 ∣ 400 * cycles + 100 * centuries + 4 * leaps + years + 1 ↔
      years = 3 ∧ leaps = 24 ∧ centuries = 3 := by omega
  have hleap := isLeap_iff (400 * cycles + 100 * centuries + 4 * leaps + years + 1)
  rw [h4, h100, h400] at hleap
  rw [daysInYear]
  congr 1
  rw [hleap, eq_iff_iff]
  omega

theorem yearOfDay_spec (days : Nat) :
    1 ≤ (yearOfDay days).1 ∧ days = daysBeforeYear (yearOfDay days).1 + (yearOfDay days).2 ∧
      (yearOfDay days).2 < daysInYear (yearOfDay days).1 := by
  simp only [yearOfDay]
  have hsplit := Nat.div_add_mod days 146097
  have hrest := Nat.mod_lt days (by decide : 146097 > 0)
  generalize days / 146097 = cycles, days % 146097 = inCycle at *
  obtain ⟨centuries, hcenturies⟩ : ∃ n, n = min (inCycle / 36524) 3 := ⟨_, rfl⟩
  rw [← hcenturies]
  obtain ⟨inCentury, hinCentury⟩ : ∃ n, n = inCycle - 36524 * centuries := ⟨_, rfl⟩
  rw [← hinCentury]
  obtain ⟨years, hyears⟩ : ∃ n, n = min (inCentury % 1461 / 365) 3 := ⟨_, rfl⟩
  rw [← hyears]
  have hle : centuries ≤ 3 ∧ inCentury / 1461 ≤ 24 ∧ years ≤ 3 := by omega
  rw [daysBeforeYear_rounds hle.1 hle.2.1 hle.2.2, daysInYear_rounds hle.1 hle.2.1 hle.2.2]
  refine ⟨Nat.le_add_left 1 _, by omega, ?_⟩
  split <;> omega

/-! ## Months -/

theorem daysBeforeMonth_succ (year : Nat) {month : Nat} (h : 1 ≤ month) :
    daysBeforeMonth year (month + 1) = daysBeforeMonth year month + daysInMonth year month := by
  obtain ⟨past, rfl⟩ := Nat.exists_eq_add_of_le' h
  rfl

theorem daysBeforeMonth_mono (year : Nat) : Monotone (daysBeforeMonth year) := by
  apply monotone_nat_of_le_succ
  intro month
  cases month with
  | zero => exact Nat.le_refl 0
  | succ past =>
    rw [daysBeforeMonth_succ year (Nat.le_add_left 1 past)]
    exact Nat.le_add_right _ _

theorem daysBeforeMonth_thirteen (year : Nat) : daysBeforeMonth year 13 = daysInYear year := by
  cases hleap : isLeap year <;> simp [daysBeforeMonth, daysInMonth, daysInYear, hleap]

private theorem monthOfDay_spec (year count days : Nat) (hcount : count ≤ 11)
    (hdays : daysBeforeMonth year (12 - count) + days < daysInYear year) :
    ∃ month day, monthOfDay year (List.range' (12 - count) (count + 1)) days = (month, day) ∧
      1 ≤ month ∧ month ≤ 12 ∧ 1 ≤ day ∧ day ≤ daysInMonth year month ∧
      daysBeforeMonth year month + (day - 1) = daysBeforeMonth year (12 - count) + days := by
  have hnext : daysBeforeMonth year (12 - count + 1) = _ := daysBeforeMonth_succ year (by omega)
  induction count generalizing days with
  | zero =>
    have hlast : days < daysInMonth year 12 := by
      simp only [Nat.sub_zero] at hdays hnext
      rw [← daysBeforeMonth_thirteen, hnext] at hdays
      omega
    exact ⟨12, days + 1, by simp [List.range', monthOfDay, hlast], by omega, by omega, by omega,
      hlast, rfl⟩
  | succ count ih =>
    rw [List.range'_succ, monthOfDay]
    split
    · next hhere =>
      exact ⟨12 - (count + 1), days + 1, rfl, by omega, by omega, by omega, hhere, rfl⟩
    · next hlater =>
      have hmonth : 12 - count = 12 - (count + 1) + 1 := by omega
      rw [← hmonth] at hnext ⊢
      obtain ⟨month, day, heq, hfirst, hlast, hpos, hday, hnumber⟩ :=
        ih (days - daysInMonth year (12 - (count + 1))) (by omega) (by omega)
          (daysBeforeMonth_succ year (by omega))
      exact ⟨month, day, heq, hfirst, hlast, hpos, hday, by omega⟩

/-! ## Dates -/

def lastDay : Nat := 3652059

private theorem daysBeforeYear_end : daysBeforeYear 10000 = lastDay := rfl

private theorem daysInYear_of_date (date : Date) :
    daysBeforeMonth date.year date.month + (date.day - 1) < daysInYear date.year := by
  have hday := date.day_range
  have hmonth := date.month_range
  have hnext := daysBeforeMonth_succ date.year hmonth.1
  have hlast := daysBeforeMonth_mono date.year (by omega : date.month + 1 ≤ 13)
  rw [daysBeforeMonth_thirteen, hnext] at hlast
  omega

theorem Date.dayNumber_eq (date : Date) :
    date.dayNumber =
      daysBeforeYear date.year + (daysBeforeMonth date.year date.month + (date.day - 1)) :=
  Nat.add_assoc _ _ _

theorem Date.daysBeforeYear_le (date : Date) : daysBeforeYear date.year ≤ date.dayNumber := by
  rw [date.dayNumber_eq]
  exact Nat.le_add_right _ _

theorem Date.dayNumber_lt (date : Date) : date.dayNumber < daysBeforeYear (date.year + 1) := by
  have hrest := daysInYear_of_date date
  rw [date.dayNumber_eq, daysBeforeYear_succ date.year_range.1]
  omega

theorem Date.dayNumber_lt_lastDay (date : Date) : date.dayNumber < lastDay := by
  rw [← daysBeforeYear_end]
  have hyear := date.year_range.2
  exact Nat.lt_of_lt_of_le date.dayNumber_lt (daysBeforeYear_mono (by omega))

/-- Every day of the calendar has a date, and it is the one that is worked out for the day. -/
theorem exists_dateOfDay {days : Nat} (h : days < lastDay) :
    ∃ date : Date, date.dayNumber = days ∧ dateOfDay days = (date.year, date.month, date.day) := by
  obtain ⟨hpos, hdays, hrest⟩ := yearOfDay_spec days
  have hyear : (yearOfDay days).1 ≤ 9999 := by
    by_contra hlate
    have hmono := daysBeforeYear_mono (by omega : 10000 ≤ (yearOfDay days).1)
    rw [daysBeforeYear_end] at hmono
    omega
  obtain ⟨month, day, heq, hfirst, hlast, hone, hday, hnumber⟩ :=
    monthOfDay_spec (yearOfDay days).1 11 (yearOfDay days).2 (by omega)
      (by simpa [daysBeforeMonth] using hrest)
  refine ⟨⟨(yearOfDay days).1, month, day, ⟨hpos, hyear⟩, ⟨hfirst, hlast⟩, ⟨hone, hday⟩⟩, ?_, ?_⟩
  · have hnone : daysBeforeMonth (yearOfDay days).1 (12 - 11) = 0 := rfl
    rw [Date.dayNumber_eq, hnumber, hnone, Nat.zero_add]
    exact hdays.symm
  · exact congrArg (Prod.mk (yearOfDay days).1) heq

/-- Dates in the order of their years, in a year of their months, and in a month of their days. -/
def Date.Before (date later : Date) : Prop :=
  date.year < later.year ∨ date.year = later.year ∧
    (date.month < later.month ∨ date.month = later.month ∧ date.day < later.day)

theorem Date.Before.dayNumber_lt {date later : Date} (h : date.Before later) :
    date.dayNumber < later.dayNumber := by
  rcases h with hyear | ⟨hyear, hmonth | ⟨hmonth, hday⟩⟩
  · have hnext := daysBeforeYear_mono (by omega : date.year + 1 ≤ later.year)
    have hfirst := date.dayNumber_lt
    have hlast := later.daysBeforeYear_le
    omega
  · have hnext := daysBeforeMonth_mono later.year (by omega : date.month + 1 ≤ later.month)
    rw [daysBeforeMonth_succ later.year date.month_range.1] at hnext
    have hday := date.day_range
    rw [date.dayNumber_eq, later.dayNumber_eq, hyear]
    rw [hyear] at hday
    omega
  · have hday' := date.day_range
    rw [date.dayNumber_eq, later.dayNumber_eq, hyear, hmonth]
    omega

theorem Date.before_trichotomy (date other : Date) :
    date.Before other ∨ date = other ∨ other.Before date := by
  obtain ⟨year, month, day, _, _, _⟩ := date
  obtain ⟨year', month', day', _, _, _⟩ := other
  simp only [Before, Date.mk.injEq]
  omega

theorem Date.dayNumber_injective : Function.Injective Date.dayNumber := by
  intro date other h
  rcases date.before_trichotomy other with hbefore | heq | hafter
  · exact absurd h (Nat.ne_of_lt hbefore.dayNumber_lt)
  · exact heq
  · exact absurd h.symm (Nat.ne_of_lt hafter.dayNumber_lt)

theorem Date.before_of_dayNumber_lt {date later : Date} (h : date.dayNumber < later.dayNumber) :
    date.Before later := by
  rcases date.before_trichotomy later with hbefore | rfl | hafter
  · exact hbefore
  · exact absurd h (Nat.lt_irrefl _)
  · exact absurd hafter.dayNumber_lt (Nat.lt_asymm h)

end SqlFragments.Calendar
