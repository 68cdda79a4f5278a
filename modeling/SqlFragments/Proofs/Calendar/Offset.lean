import SqlFragments.Literal.Basic
import SqlFragments.Proofs.Number.Rounding

/-!
# Exact offsets

An offset is turned into microseconds by rounded arithmetic on hours. Still it comes to exactly the
minutes that are written: the errors of rounding are far less than a microsecond.
-/

namespace SqlFragments

open Calendar Number

namespace Calendar

/-! ## What an offset can say -/

theorem digitValue?_lt {c : Char} {n : Nat} (h : Text.digitValue? c = some n) : n < 10 := by
  obtain ⟨least, hleast, rfl⟩ := Option.map_eq_some_iff.1 h
  have hrange := List.find?_some hleast
  simp only [Bool.and_eq_true, decide_eq_true_eq] at hrange
  omega

namespace Offset

theorem twoDigits?_lt {cs rest : List Char} {n : Nat} (h : twoDigits? cs = some (n, rest)) :
    n < 100 := by
  unfold twoDigits? at h
  split at h
  · split at h
    · next tens ones htens hones =>
      cases h
      have hten := digitValue?_lt htens
      have hone := digitValue?_lt hones
      omega
    · cases h
  · cases h

theorem minutesAfter_lt (cs : List Char) : minutesAfter cs < 100 := by
  have hfound : ∀ rest, ((twoDigits? rest).map (·.1)).getD 0 < 100 := by
    intro rest
    cases hdigits : twoDigits? rest with
    | none => exact Nat.zero_lt_succ _
    | some found => exact twoDigits?_lt hdigits
  exact hfound _

theorem here?_range {cs : List Char} {offset : Offset} (h : here? cs = some offset) :
    offset.hours < 100 ∧ offset.minutes < 100 := by
  unfold here? at h
  split at h
  · cases h
  · split at h
    · obtain ⟨⟨hours, later⟩, hdigits, rfl⟩ := Option.map_eq_some_iff.1 h
      exact ⟨twoDigits?_lt hdigits, minutesAfter_lt later⟩
    · cases h

theorem leftmost?_range {cs : List Char} {offset : Offset} (h : leftmost? cs = some offset) :
    offset.hours < 100 ∧ offset.minutes < 100 := by
  induction cs with
  | nil => cases h
  | cons c cs ih =>
    rw [leftmost?] at h
    split at h
    · next hhere =>
      cases h
      exact here?_range hhere
    · exact ih h

end Offset

theorem Zone.range_of_shifted {timezone : Value} {offset : Offset}
    (h : Literal.zoneOf timezone = .shifted offset) :
    offset.hours < 100 ∧ offset.minutes < 100 := by
  cases timezone with
  | text s =>
    simp only [Literal.zoneOf, Zone.ofText] at h
    split at h
    · cases h
    · split at h
      · cases h
      · split at h
        · next hfound =>
          cases h
          exact Offset.leftmost?_range hfound
        · cases h
  | _ => cases h

/-! ## Rounded minutes -/

theorem microsecondsOf_eq {minutes : Rat} {n : Int} (h : minutes * 60000000 = n) :
    microsecondsOf minutes = n := by
  apply nearest_eq
  rw [h, sub_self, abs_zero]
  exact one_half_pos

namespace Offset

def totalMinutes (offset : Offset) : Int :=
  let size : Int := 60 * offset.hours + offset.minutes
  if offset.negative then -size else size

private theorem toRat?_ofNat (n : Fin 100) : (Double.ofNat n).toRat? = some (n.val : ℚ) := by
  decide +revert +kernel

private theorem exists_between {x : Double} {q : ℚ}
    (hrounds : q = 0 ∨ Double.Normal q → x.Rounds q) (h : q = 0 ∨ 1 / 1000 ≤ q)
    (hlimit : q ≤ 10000) :
    ∃ a, x.toRat? = some a ∧ q - q / 9007199254740992 ≤ a ∧ a ≤ q + q / 9007199254740992 := by
  have hsize : |q| = q := abs_of_nonneg (by rcases h with h | h <;> linarith)
  have hnormal : q = 0 ∨ Double.Normal q := by
    refine h.imp_right fun hleast => ⟨?_, ?_⟩
    · rw [hsize]
      exact le_trans (by decide +kernel) hleast
    · have hwide : (10000 : ℚ) ≤ Double.powerOfTwo 14 := by decide +kernel
      rw [hsize]
      exact (hlimit.trans hwide).trans (Double.powerOfTwo_le_iff.2 (by decide))
  obtain ⟨a, ha, hnear⟩ := hrounds hnormal
  have hunit : Double.powerOfTwo (-53) = 1 / 9007199254740992 := by decide +kernel
  rw [hunit, hsize, abs_le] at hnear
  exact ⟨a, ha, by linarith, by linarith⟩

private theorem exists_size (hours minutes : Fin 100) :
    ∃ size, (((Double.ofNat hours).add ((Double.ofNat minutes).div (Double.ofNat 60))).mul
        (Double.ofNat 60)).toRat? = some size ∧
      |size - (60 * hours.val + minutes.val)| < 1 / 1000000000 := by
  have hsixty : (Double.ofNat 60).toRat? = some 60 := toRat?_ofNat 60
  have hhour : (hours.val : ℚ) ≤ 99 := by exact_mod_cast (by omega : hours.val ≤ 99)
  have hminute : (minutes.val : ℚ) ≤ 99 := by exact_mod_cast (by omega : minutes.val ≤ 99)
  have hhour' : (hours.val : ℚ) = 0 ∨ 1 ≤ (hours.val : ℚ) := by
    exact_mod_cast Nat.eq_zero_or_pos hours.val
  have hminute' : (minutes.val : ℚ) = 0 ∨ 1 ≤ (minutes.val : ℚ) := by
    exact_mod_cast Nat.eq_zero_or_pos minutes.val
  have hh := toRat?_ofNat hours
  have hm := toRat?_ofNat minutes
  generalize (hours.val : ℚ) = h at *
  generalize (minutes.val : ℚ) = m at *
  have hquotient : m / 60 = 0 ∨ 1 / 60 ≤ m / 60 :=
    hminute'.imp (fun h => by rw [h, zero_div]) fun h => by linarith
  obtain ⟨a, ha, halow, hahigh⟩ :=
    exists_between (Double.rounds_div hm hsixty) (by grind) (by linarith)
  have hsum : h + a = 0 ∨ 1 / 120 ≤ h + a := by
    rcases hhour' with hzero | hpos <;> rcases hquotient with hzero' | hpos'
    · left; linarith
    · right; linarith
    · right; linarith
    · right; linarith
  obtain ⟨b, hb, hblow, hbhigh⟩ :=
    exists_between (Double.rounds_add hh ha) (by grind) (by linarith)
  have hproduct : b * 60 = 0 ∨ 1 / 4 ≤ b * 60 := by
    rcases hsum with hzero | hpos
    · left; linarith
    · right; linarith
  obtain ⟨c, hc, hclow, hchigh⟩ :=
    exists_between (Double.rounds_mul hb hsixty) (by grind) (by linarith)
  refine ⟨c, hc, ?_⟩
  rw [abs_lt]
  constructor <;> linarith

theorem microseconds_eq {offset : Offset} (hhours : offset.hours < 100)
    (hminutes : offset.minutes < 100) :
    offset.microseconds = offset.totalMinutes * Instant.minute := by
  obtain ⟨size, hsize, hnear⟩ := exists_size ⟨offset.hours, hhours⟩ ⟨offset.minutes, hminutes⟩
  have hminute : Instant.minute = 60000000 := rfl
  rw [abs_lt] at hnear
  rw [microseconds, asDouble, totalMinutes, hminute]
  split
  · rw [Double.toRat?_negate, hsize, Option.map_some, Option.elim_some, microsecondsOf]
    apply nearest_eq
    push_cast
    rw [abs_lt]
    constructor <;> linarith
  · rw [hsize, Option.elim_some, microsecondsOf]
    apply nearest_eq
    push_cast
    rw [abs_lt]
    constructor <;> linarith

end Offset

/-! ## Zones -/

namespace Zone

def minutes (hostMinutes : Rat) : Zone → Rat
  | universal => 0
  | host => hostMinutes
  | shifted offset => offset.totalMinutes
  | unknown => 0

theorem microseconds_eq {hostMinutes : Rat} {timezone : Value} {n : Int}
    (h : (Literal.zoneOf timezone).minutes hostMinutes * 60000000 = n) :
    (Literal.zoneOf timezone).microseconds hostMinutes = n := by
  cases hzone : Literal.zoneOf timezone with
  | universal | unknown =>
    rw [hzone, minutes, zero_mul] at h
    exact_mod_cast h
  | host =>
    rw [hzone, minutes] at h
    exact microsecondsOf_eq h
  | shifted offset =>
    obtain ⟨hhours, hminutes⟩ := range_of_shifted hzone
    rw [hzone, minutes] at h
    rw [microseconds, Offset.microseconds_eq hhours hminutes]
    exact_mod_cast h

/-- No offset is more than 99 hours and 99 minutes. -/
def widest : Int := (60 * 99 + 99) * Instant.minute

theorem widest_eq : widest = 362340000000 := rfl

theorem abs_microseconds_le {hostMinutes : Rat} (hhost : |hostMinutes| < 24 * 60)
    (timezone : Value) : |(Literal.zoneOf timezone).microseconds hostMinutes| ≤ widest := by
  rw [widest_eq]
  cases hzone : Literal.zoneOf timezone with
  | universal | unknown =>
    rw [microseconds, abs_zero]
    decide
  | host =>
    have hnear := abs_nearest_sub_le (hostMinutes * 60000000)
    rw [abs_le] at hnear
    rw [abs_lt] at hhost
    have hwide : |((Zone.host.microseconds hostMinutes : Int) : ℚ)| ≤ (362340000000 : Int) := by
      rw [microseconds, microsecondsOf, abs_le]
      push_cast
      constructor <;> linarith
    exact_mod_cast hwide
  | shifted offset =>
    obtain ⟨hhours, hminutes⟩ := range_of_shifted hzone
    have hminute : Instant.minute = 60000000 := rfl
    rw [microseconds, Offset.microseconds_eq hhours hminutes, Offset.totalMinutes, hminute, abs_le]
    split <;> omega

end Zone

end Calendar

end SqlFragments
