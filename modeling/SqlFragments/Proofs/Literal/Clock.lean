import SqlFragments.Literal.OfValue
import SqlFragments.Proofs.Calendar.Face
import SqlFragments.Proofs.Calendar.Offset

/-!
# Dates on the clocks of zones

A date is written as the clock of a time zone stands at its instant. A clock that would stand
beyond an end of the calendar stands at that end. So does one whose instant is off the calendar in
universal time, even where the clock itself would be back on it.
-/

namespace SqlFragments

open Calendar

namespace Calendar

/-! ## Clocks at the ends of the calendar -/

namespace Instant

/-- The instant of the calendar that is nearest to an instant. -/
def limited (t : Int) : Int := max first (min t last)

/-- Where a clock stands that is some microseconds ahead of universal time: it is moved from the
instant and kept on the calendar, but from an instant off the calendar it is not moved at all. -/
def landing (t ahead : Int) : Int :=
  if Instant.onCalendar t then limited (t + ahead) else limited t

theorem limited_eq (t : Int) : limited t = max 0 (min t 315537897599999999) := rfl

theorem limited_of_onCalendar {t : Int} (h : Instant.onCalendar t = true) : limited t = t := by
  rw [onCalendar_iff] at h
  rw [limited_eq]
  omega

theorem onCalendar_limited (t : Int) : Instant.onCalendar (limited t) = true := by
  rw [onCalendar_iff, limited_eq]
  omega

theorem onCalendar_landing (t ahead : Int) : Instant.onCalendar (landing t ahead) = true := by
  unfold landing
  split <;> exact onCalendar_limited _

theorem landing_mono {t later : Int} (h : t ≤ later) (ahead : Int) :
    landing t ahead ≤ landing later ahead := by
  simp only [landing, onCalendar_iff, limited_eq]
  split <;> split <;> omega

end Instant

end Calendar

/-! ## Dates as texts -/

def Value.instant? : Value → Option Instant
  | .dateTime moment => some (.ofDateTime moment)
  | .date day => some (.ofDate day)
  | _ => none

namespace Literal

private theorem one_lt_year_iff {moment : DateTime} {wall : Int}
    (hwall : Instant.ofWallClock moment = wall) :
    1 < moment.date.year ↔ 365 * 86400000000 ≤ wall := by
  have hfirst : daysBeforeYear 2 = 365 := rfl
  have hhour := moment.time.hour_lt
  have hminute := moment.time.minute_lt
  have hsecond := moment.time.second_lt
  have hmicrosecond := moment.time.microsecond_lt
  rw [Instant.ofWallClock_eq] at hwall
  change (_ : Int) = wall at hwall
  constructor
  · intro hyear
    have hdays := daysBeforeYear_mono (by omega : 2 ≤ moment.date.year)
    have hle := moment.date.daysBeforeYear_le
    omega
  · intro hlate
    by_contra hyear
    have hdays := daysBeforeYear_mono (by omega : moment.date.year + 1 ≤ 2)
    have hlt := moment.date.dayNumber_lt
    omega

private theorem natAbs_offset_lt (moment : DateTime) :
    (moment.offset.elim 0 (·.microseconds)).natAbs < 86400000000 := by
  cases moment.offset with
  | none => decide
  | some offset =>
    have hrange := offset.range
    rw [Option.elim_some]
    omega

private def midnight : TimeOfDay where
  hour := 0
  minute := 0
  second := 0
  microsecond := 0
  hour_lt := by decide
  minute_lt := by decide
  second_lt := by decide
  microsecond_lt := by decide

private theorem ofWallClock_midnight (day : Date) :
    Instant.ofWallClock ⟨day, midnight, none⟩ = Instant.ofDate day := by
  have hstart : midnight.microseconds = 0 := by decide
  rw [Instant.ofWallClock, hstart]
  exact Int.add_zero _

private theorem exists_clockText {v : Value} {t : Int} (hv : v.instant? = some t)
    (hostMinutes : Rat) (timezone : Value) :
    ∃ year, dateValueText hostMinutes timezone v =
        .ok (clockText year t ((zoneOf timezone).microseconds hostMinutes)) ∧
      (t < 364 * 86400000000 → year ≤ 1) ∧ (366 * 86400000000 ≤ t → 1 < year) := by
  cases v with
  | dateTime moment =>
    cases hv
    have hoffset := natAbs_offset_lt moment
    obtain ⟨wall, hwall⟩ : ∃ wall : Int, Instant.ofWallClock moment = wall :=
      ⟨Instant.ofWallClock moment, rfl⟩
    have hyear := one_lt_year_iff hwall
    refine ⟨moment.date.year, rfl, ?_⟩
    rw [Instant.ofDateTime, hwall]
    generalize moment.offset.elim 0 (·.microseconds) = offset at hoffset
    change ((wall - offset : Int) < _ → _) ∧ (_ ≤ (wall - offset : Int) → _)
    omega
  | date day =>
    cases hv
    have hyear : 1 < day.year ↔ (365 * 86400000000 : Int) ≤ Instant.ofDate day :=
      one_lt_year_iff (ofWallClock_midnight day)
    refine ⟨day.year, rfl, ?_⟩
    omega
  | _ => cases hv

private theorem calendarEnd_eq {year : Nat} {t : Int}
    (h : t < 0 ∧ year ≤ 1 ∨ 315537897599999999 < t ∧ 1 < year) :
    calendarEnd year = Instant.limited t := by
  have hlast : (Instant.last : Int) = 315537897599999999 := rfl
  have hfirst : (Instant.first : Int) = 0 := rfl
  rw [calendarEnd, Instant.limited_eq]
  split
  · rw [hlast]
    show (_ : Int) = _
    omega
  · rw [hfirst]
    show (_ : Int) = _
    omega

private theorem clockText_eq {year : Nat} {t ahead : Int}
    (hfirst : t < 364 * 86400000000 → year ≤ 1) (hlater : 366 * 86400000000 ≤ t → 1 < year)
    (hahead : |ahead| ≤ Zone.widest) :
    clockText year t ahead = Instant.text (Instant.landing t ahead) := by
  rw [Zone.widest_eq, abs_le] at hahead
  rw [clockText, shifted?, Instant.landing]
  by_cases ht : Instant.onCalendar t = true
  · rw [if_pos ht, ht, Bool.true_and]
    by_cases hmoved : Instant.onCalendar (t + ahead) = true
    · rw [if_pos hmoved, Instant.limited_of_onCalendar hmoved, Option.getD_some]
    · rw [if_neg hmoved, Option.getD_none, calendarEnd_eq]
      rw [Instant.onCalendar_iff] at ht hmoved
      omega
  · rw [if_neg ht, if_neg (by simp [ht]), Option.getD_none, calendarEnd_eq]
    rw [Instant.onCalendar_iff] at ht
    omega

/-- Every date is written as the instant where the clock of the zone stands. -/
theorem dateValueText_eq_landing {hostMinutes : Rat} (hhost : |hostMinutes| < 24 * 60)
    (timezone : Value) {v : Value} {t : Int} (hv : v.instant? = some t) :
    dateValueText hostMinutes timezone v =
      .ok (Instant.text (Instant.landing t ((zoneOf timezone).microseconds hostMinutes))) := by
  obtain ⟨year, htext, hfirst, hlater⟩ := exists_clockText hv hostMinutes timezone
  rw [htext, clockText_eq hfirst hlater (Zone.abs_microseconds_le hhost timezone)]

private theorem instant?_range {v : Value} {t : Int} (hv : v.instant? = some t) :
    -86400000000 < t ∧ t < 315537897600000000 + 86400000000 := by
  cases v with
  | dateTime moment =>
    cases hv
    have hoffset := natAbs_offset_lt moment
    have hwall := Instant.onCalendar_iff.1 (Instant.onCalendar_ofWallClock moment)
    obtain ⟨wall, heq⟩ : ∃ wall : Int, Instant.ofWallClock moment = wall :=
      ⟨Instant.ofWallClock moment, rfl⟩
    rw [heq] at hwall
    rw [Instant.ofDateTime, heq]
    show (_ : Int) < _ ∧ (_ : Int) < _
    omega
  | date day =>
    cases hv
    have hwall := Instant.onCalendar_iff.1 (Instant.onCalendar_ofWallClock ⟨day, midnight, none⟩)
    rw [ofWallClock_midnight] at hwall
    obtain ⟨wall, heq⟩ : ∃ wall : Int, Instant.ofDate day = wall := ⟨Instant.ofDate day, rfl⟩
    rw [heq] at hwall ⊢
    omega
  | _ => cases hv

private theorem text_first : Instant.text (0 : Int) = "0001-01-01 00:00:00.000" := by
  decide +kernel

private theorem text_last :
    Instant.text (315537897599999999 : Int) = "9999-12-31 23:59:59.999" := by
  decide +kernel

/-- A date is written as the shifted instant, or as the end of the calendar beyond which that is.
It is not where the shifted instant is on the calendar but the instant itself, in universal time,
is not: then it is written as the end beyond which the instant itself is. -/
theorem dateValueText_eq_face_iff {hostMinutes : Rat} (hhost : |hostMinutes| < 24 * 60)
    (timezone : Value) {v : Value} {t shown : Int} (hv : v.instant? = some t)
    (hshown : shown = t + (zoneOf timezone).minutes hostMinutes * Instant.minute) :
    ∃ s, dateValueText hostMinutes timezone v = .ok s ∧
      (shown < Instant.first → s = "0001-01-01 00:00:00.000") ∧
      (Instant.last < shown → s = "9999-12-31 23:59:59.999") ∧
      (Instant.onCalendar shown = true → ∃ moment : DateTime, moment.offset = none ∧
        Instant.ofWallClock moment = shown ∧
        (s = moment.face ↔
          Instant.onCalendar t = true ∨ shown / 1000 = Instant.limited t / 1000)) ∧
      (t < Instant.first → s = "0001-01-01 00:00:00.000") ∧
      (Instant.last < t → s = "9999-12-31 23:59:59.999") := by
  refine ⟨_, dateValueText_eq_landing hhost timezone hv, ?_⟩
  have hrange := instant?_range hv
  have hwide := Zone.abs_microseconds_le hhost timezone
  rw [Zone.widest_eq, abs_le] at hwide
  have hahead : (zoneOf timezone).microseconds hostMinutes = shown - t := by
    apply Zone.microseconds_eq
    rw [Instant.minute_eq] at hshown
    push_cast at hshown ⊢
    linarith
  rw [hahead] at hwide ⊢
  -- the clock stands at the shifted instant, unless one of the two is off the calendar
  have hlanding : Instant.landing t (shown - t) = if 0 ≤ t ∧ t < 315537897600000000 then
      Instant.limited shown else Instant.limited t := by
    simp only [Instant.landing, Instant.onCalendar_iff, add_sub_cancel]
  have hlimited := Instant.limited_eq t
  have hlimited' := Instant.limited_eq shown
  have hbefore : shown < 0 ∨ t < 0 →
      Instant.text (Instant.landing t (shown - t)) = "0001-01-01 00:00:00.000" := by
    intro h
    have hstart : Instant.landing t (shown - t) = (0 : Int) := by
      rw [hlanding]
      split <;> omega
    rw [hstart, text_first]
  have hbeyond : 315537897599999999 < shown ∨ 315537897599999999 < t →
      Instant.text (Instant.landing t (shown - t)) = "9999-12-31 23:59:59.999" := by
    intro h
    have hend : Instant.landing t (shown - t) = (315537897599999999 : Int) := by
      rw [hlanding]
      split <;> omega
    rw [hend, text_last]
  refine ⟨fun h => hbefore (.inl h), fun h => hbeyond (.inl h), ?_, fun h => hbefore (.inr h),
    fun h => hbeyond (.inr h)⟩
  intro hon
  obtain ⟨moment, hnaive, hclock, hface⟩ := Instant.exists_wallClock hon
  refine ⟨moment, hnaive, hclock, ?_⟩
  rw [← hface, Instant.text_inj (Instant.onCalendar_landing _ _) hon, Instant.onCalendar_iff,
    hlanding]
  rw [Instant.onCalendar_iff] at hon
  split <;> omega

/-- The evening before a leap day on one clock is the morning of the leap day on another. -/
theorem dateValueText_eq_face_iff_leapDay :
    let date : Date := ⟨2000, 2, 28, by decide, by decide, by decide⟩
    let time : TimeOfDay := ⟨20, 15, 0, 999999, by decide, by decide, by decide, by decide⟩
    let v : Value := .dateTime ⟨date, time, UtcOffset.ofSeconds? (-19800)⟩
    let t : Int := 63087385500999999
    let shown : Int := 63087405300999999
    (|(0 : Rat)| < 24 * 60 ∧ v.instant? = some t ∧
      shown = t + (zoneOf (.text "+05:30")).minutes 0 * Instant.minute) ∧
    ∃ moment : DateTime, moment.offset = none ∧ Instant.ofWallClock moment = shown ∧
      dateValueText 0 (.text "+05:30") v = .ok moment.face := by
  intro date time v t shown
  have hhost : |(0 : Rat)| < 24 * 60 := by decide +kernel
  have hv : v.instant? = some t := by decide +kernel
  have hshown : shown = t + (zoneOf (.text "+05:30")).minutes 0 * Instant.minute := by
    decide +kernel
  obtain ⟨s, hs, -, -, hface, -⟩ := dateValueText_eq_face_iff hhost (.text "+05:30") hv hshown
  obtain ⟨moment, hnaive, hclock, hiff⟩ := hface (by decide +kernel)
  refine ⟨⟨hhost, hv, hshown⟩, moment, hnaive, hclock, ?_⟩
  rw [hs, hiff.2 (.inl (by decide +kernel))]

/-- What is an hour after the start of the calendar is written as its start, where it is given by a
clock on which it is the start and which is ahead of universal time. -/
theorem dateValueText_ne_face :
    let date : Date := ⟨1, 1, 1, by decide, by decide, by decide⟩
    let midnight : TimeOfDay := ⟨0, 0, 0, 0, by decide, by decide, by decide, by decide⟩
    let one : TimeOfDay := ⟨1, 0, 0, 0, by decide, by decide, by decide, by decide⟩
    let v : Value := .dateTime ⟨date, midnight, UtcOffset.ofSeconds? 3600⟩
    let t : Int := -3600000000
    let shown : DateTime := ⟨date, one, none⟩
    v.instant? = some t ∧
    (Instant.ofWallClock shown : Int) =
      t + (zoneOf (.text "+02:00")).minutes 0 * Instant.minute ∧
    shown.face = "0001-01-01 01:00:00.000" ∧
    dateValueText 0 (.text "+02:00") v = .ok "0001-01-01 00:00:00.000" := by
  intro date midnight one v t shown
  refine ⟨by decide +kernel, by decide +kernel, by decide +kernel, ?_⟩
  exact congrArg Except.ok (by decide +kernel)

/-- Dates are written in the order of their instants. -/
theorem dateValueText_mono {hostMinutes : Rat} (hhost : |hostMinutes| < 24 * 60)
    (timezone : Value) {v later : Value} {t t' : Int} (hv : v.instant? = some t)
    (hlater : later.instant? = some t') (h : t ≤ t') :
    ∃ s s', dateValueText hostMinutes timezone v = .ok s ∧
      dateValueText hostMinutes timezone later = .ok s' ∧ s ≤ s' := by
  refine ⟨_, _, dateValueText_eq_landing hhost timezone hv,
    dateValueText_eq_landing hhost timezone hlater, ?_⟩
  exact Instant.text_le_text (Instant.onCalendar_landing _ _) (Instant.onCalendar_landing _ _)
    (Instant.landing_mono h _)

/-- The last day, and an evening of it that is past the end of the calendar in universal time. -/
theorem dateValueText_mono_lastDay :
    let date : Date := ⟨9999, 12, 31, by decide, by decide, by decide⟩
    let evening : TimeOfDay := ⟨23, 30, 0, 0, by decide, by decide, by decide, by decide⟩
    let later : Value := .dateTime ⟨date, evening, UtcOffset.ofSeconds? (-3600)⟩
    let t : Int := 315537811200000000
    let t' : Int := 315537899400000000
    let hostMinutes : Rat := mkRat (-89) 2
    (|hostMinutes| < 24 * 60 ∧ (Value.date date).instant? = some t ∧
      later.instant? = some t' ∧ t ≤ t') ∧
    ∃ s s', dateValueText hostMinutes (.text "local") (.date date) = .ok s ∧
      dateValueText hostMinutes (.text "local") later = .ok s' ∧ s ≤ s' := by
  intro date evening later t t' hostMinutes
  have hhost : |hostMinutes| < 24 * 60 := by decide +kernel
  have hv : (Value.date date).instant? = some t := by decide +kernel
  have hlater : later.instant? = some t' := by decide +kernel
  have hle : t ≤ t' := by decide
  exact ⟨⟨hhost, hv, hlater, hle⟩, dateValueText_mono hhost (.text "local") hv hlater hle⟩

end Literal

end SqlFragments
