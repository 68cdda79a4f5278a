import Mathlib.Data.String.Basic
import SqlFragments.Proofs.Calendar.Day
import SqlFragments.Proofs.Text.Columns

/-!
# Instants as dates and times

Every instant of the calendar is one date and time, and is written as that. Texts of instants stand
in the order of the instants, and two are the same where the instants are in one millisecond.
-/

namespace SqlFragments.Calendar

open Text

namespace DateTime

def numbers (moment : DateTime) : List Nat :=
  [moment.date.year, moment.date.month, moment.date.day, moment.time.hour, moment.time.minute,
    moment.time.second, moment.time.microsecond / 1000]

/-- How wide the numbers of a date and time are written, and what stands behind each. -/
def layout : List (Nat × List Char) :=
  [(4, ['-']), (2, ['-']), (2, [' ']), (2, [':']), (2, [':']), (2, ['.']), (3, [])]

/-- A date and time as `YYYY-MM-DD HH:MM:SS.mmm`. -/
def face (moment : DateTime) : String :=
  String.ofList (columns layout moment.numbers)

theorem fits_numbers (moment : DateTime) : List.Forall₂ Fits layout moment.numbers := by
  obtain ⟨date, time, _⟩ := moment
  have hyear := date.year_range
  have hmonth := date.month_range
  have hday : date.day ≤ 31 := by
    apply Nat.le_trans date.day_range.2
    unfold daysInMonth
    split_ifs <;> decide
  have hhour := time.hour_lt
  have hminute := time.minute_lt
  have hsecond := time.second_lt
  have hmicrosecond := time.microsecond_lt
  have htens : Nat.pow 10 2 = 100 ∧ Nat.pow 10 3 = 1000 ∧ Nat.pow 10 4 = 10000 := by decide
  simp only [layout, numbers, Fits, List.forall₂_cons, List.Forall₂.nil, and_true, htens]
  omega

end DateTime

namespace Instant

@[simp]
theorem minute_eq : (minute : Int) = 60000000 := rfl

@[simp]
theorem day_eq : (day : Int) = 86400000000 := rfl

theorem onCalendar_iff {t : Int} :
    Instant.onCalendar t = true ↔ 0 ≤ t ∧ t < 315537897600000000 := by
  show (decide ((0 : Int) ≤ t) && decide (t ≤ (315537897599999999 : Int))) = true ↔ _
  rw [Bool.and_eq_true, decide_eq_true_eq, decide_eq_true_eq]
  omega

theorem ofWallClock_eq (moment : DateTime) :
    ofWallClock moment = (moment.date.dayNumber * 86400000000 + (moment.time.hour * 3600000000 +
      moment.time.minute * 60000000 + moment.time.second * 1000000 + moment.time.microsecond) :
        Int) := by
  have hclock : ofWallClock moment =
      (moment.date.dayNumber * 86400000000 + moment.time.microseconds : Int) := rfl
  rw [hclock, TimeOfDay.microseconds]
  show (_ : Int) = _
  omega

theorem onCalendar_ofWallClock (moment : DateTime) :
    Instant.onCalendar (ofWallClock moment) = true := by
  have hday := moment.date.dayNumber_lt_lastDay
  have hhour := moment.time.hour_lt
  have hminute := moment.time.minute_lt
  have hsecond := moment.time.second_lt
  have hmicrosecond := moment.time.microsecond_lt
  rw [lastDay] at hday
  rw [onCalendar_iff, ofWallClock_eq]
  omega

/-- Every instant of the calendar is a date and time, as which it is written. -/
theorem exists_wallClock {t : Instant} (h : t.onCalendar = true) :
    ∃ moment : DateTime, moment.offset = none ∧ ofWallClock moment = t ∧ t.text = moment.face := by
  rw [onCalendar_iff] at h
  obtain ⟨n, rfl⟩ := Int.eq_ofNat_of_zero_le h.1
  have hlast : n / 86400000000 < lastDay := by
    rw [lastDay]
    omega
  obtain ⟨date, hnumber, hdate⟩ := exists_dateOfDay hlast
  obtain ⟨rest, hrest⟩ : ∃ rest, rest = n % 86400000000 := ⟨_, rfl⟩
  let time : TimeOfDay := {
    hour := rest / 3600000000
    minute := rest / 60000000 % 60
    second := rest / 1000000 % 60
    microsecond := rest % 1000000
    hour_lt := by omega
    minute_lt := by omega
    second_lt := by omega
    microsecond_lt := by omega }
  refine ⟨⟨date, time, none⟩, rfl, ?_, ?_⟩
  · rw [ofWallClock_eq, hnumber]
    show (_ : Int) = _
    simp only [time]
    omega
  · have hday : ((n : Int) / Instant.day).toNat = n / 86400000000 := by
      rw [day_eq]
      omega
    have htime : ((n : Int) % Instant.day).toNat = rest := by
      rw [day_eq]
      omega
    have hhour : rest / 1000 / 1000 / 3600 = rest / 3600000000 := by omega
    have hminute : rest / 1000 / 1000 / 60 % 60 = rest / 60000000 % 60 := by omega
    have hsecond : rest / 1000 / 1000 % 60 = rest / 1000000 % 60 := by omega
    have hmillis : rest / 1000 % 1000 = rest % 1000000 / 1000 := by omega
    simp only [text, hday, htime, hdate, hhour, hminute, hsecond, hmillis, DateTime.face, columns,
      DateTime.layout, DateTime.numbers, time, List.append_assoc, List.cons_append,
      List.nil_append, List.append_nil]

private theorem numbers_lt {moment later : DateTime}
    (h : (ofWallClock moment : Int) / 1000 < (ofWallClock later : Int) / 1000) :
    moment.numbers < later.numbers := by
  obtain ⟨date, time, _⟩ := moment
  obtain ⟨date', time', _⟩ := later
  have hhour' := time'.hour_lt
  have hminute' := time'.minute_lt
  have hsecond' := time'.second_lt
  have hmicrosecond' := time'.microsecond_lt
  rw [ofWallClock_eq, ofWallClock_eq] at h
  change (_ : Int) / 1000 < (_ : Int) / 1000 at h
  dsimp only at h
  simp only [DateTime.numbers, List.cons_lt_cons_iff]
  rcases Nat.lt_trichotomy date.dayNumber date'.dayNumber with hday | hday | hday
  · have hbefore := Date.before_of_dayNumber_lt hday
    rw [Date.Before] at hbefore
    omega
  · rw [Date.dayNumber_injective hday] at h ⊢
    omega
  · omega

private theorem face_lt {moment later : DateTime}
    (h : (ofWallClock moment : Int) / 1000 < (ofWallClock later : Int) / 1000) :
    moment.face < later.face := by
  rw [String.lt_iff_toList_lt, DateTime.face, DateTime.face, String.toList_ofList,
    String.toList_ofList]
  exact columns_lt_columns moment.fits_numbers later.fits_numbers (numbers_lt h)

/-- Texts of instants are in the order of the instants, to the millisecond. -/
theorem text_lt_text {t later : Int} (ht : Instant.onCalendar t = true)
    (hlater : Instant.onCalendar later = true) (h : t / 1000 < later / 1000) :
    Instant.text t < Instant.text later := by
  obtain ⟨moment, _, hmoment, htext⟩ := exists_wallClock ht
  obtain ⟨moment', _, hmoment', htext'⟩ := exists_wallClock hlater
  rw [htext, htext']
  apply face_lt
  rw [hmoment, hmoment']
  exact h

theorem text_congr {t other : Int} (h : t / 1000 = other / 1000) :
    Instant.text t = Instant.text other := by
  have hday : t / Instant.day = other / Instant.day := by
    rw [day_eq]
    omega
  have hmillis : (t % Instant.day).toNat / 1000 = (other % Instant.day).toNat / 1000 := by
    rw [day_eq]
    omega
  simp only [text, hday, hmillis]

theorem text_le_text {t later : Int} (ht : Instant.onCalendar t = true)
    (hlater : Instant.onCalendar later = true) (h : t ≤ later) :
    Instant.text t ≤ Instant.text later := by
  rcases Int.lt_or_eq_of_le (Int.ediv_le_ediv (by decide : (0 : Int) < 1000) h) with hlt | heq
  · exact le_of_lt (text_lt_text ht hlater hlt)
  · exact le_of_eq (text_congr heq)

theorem text_inj {t other : Int} (ht : Instant.onCalendar t = true)
    (hother : Instant.onCalendar other = true) :
    Instant.text t = Instant.text other ↔ t / 1000 = other / 1000 := by
  constructor
  · intro h
    rcases Int.lt_trichotomy (t / 1000) (other / 1000) with hlt | heq | hgt
    · exact absurd h (ne_of_lt (text_lt_text ht hother hlt))
    · exact heq
    · exact absurd h.symm (ne_of_lt (text_lt_text hother ht hgt))
  · exact text_congr

end Instant

end SqlFragments.Calendar
