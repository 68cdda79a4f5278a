import Mathlib
import SqlFragments.Literal.Basic
import SqlFragments.Proofs.Number.Plain
import SqlFragments.Proofs.Number.Shortest
import SqlFragments.Proofs.Text.Stencil

/-!
# Signs of number literals

A finite number has a literal unless it is whole and too long. The literal begins with a dash where
the number is below zero, and holds no dash otherwise: a zero has no sign, and the shortest digits
of a number that is not zero are not zero.
-/

namespace SqlFragments

open Text Text.Stencil Number

def Value.rational? : Value → Option Rat
  | bool b => some (if b then 1 else 0)
  | int n => some n
  | float _ x => x.toRat?
  | decimal _ x => x.toRat?
  | _ => none

def Value.isFinite (value : Value) : Bool := value.rational?.isSome

def Value.isNegative (value : Value) : Bool := value.rational?.any (· < 0)

/-- Whether a value is a whole number that is too long to be written. -/
def Value.isOverlong (value : Value) : Bool :=
  value.rational?.any fun q => q.isInt && Number.isOverlong q.num.natAbs

theorem Value.isOverlong_of_whole {value : Value} {n : Int} (h : value.rational? = some (n : ℚ)) :
    value.isOverlong = Number.isOverlong n.natAbs := by
  have hwhole : (n : ℚ).isInt = true := rfl
  rw [isOverlong, h, Option.any_some, hwhole, Bool.true_and, Rat.num_intCast]

theorem Value.isOverlong_of_part {value : Value} (h : ∀ n : Int, value.rational? ≠ some (n : ℚ)) :
    value.isOverlong = false := by
  rw [isOverlong]
  cases hq : value.rational? with
  | none => rfl
  | some q =>
    have hpart : q.isInt = false := by
      rw [Bool.eq_false_iff]
      intro hwhole
      exact h q.num (hq.trans (congrArg some (Rat.eq_num_of_isInt hwhole)))
    rw [Option.any_some, hpart, Bool.false_and]

/-! ## Digits -/

private theorem dash_not_mem_decimalDigits (n : Nat) : '-' ∉ decimalDigits n :=
  (Spells.decimalDigits n).not_mem rfl

private theorem dash_not_mem_pointed {digits : List Char} (h : '-' ∉ digits) (places : Nat) :
    '-' ∉ Decimal.pointed digits places := by
  have hfilled : '-' ∉ List.replicate (places + 1 - digits.length) '0' ++ digits := by
    simp [h]
  rw [Decimal.pointed, List.mem_append, List.mem_cons, not_or, not_or]
  exact ⟨fun hfront => hfilled (List.mem_of_mem_take hfront), by decide,
    fun hback => hfilled (List.mem_of_mem_drop hback)⟩

private theorem led_sign {negative : Bool} {cs : List Char} (hne : cs ≠ []) (h : '-' ∉ cs) :
    Led '-' negative (Decimal.sign negative ++ cs) :=
  ⟨cs, hne, h, rfl⟩

private theorem led_plain (negative : Bool) (coefficient : Nat) (exponent : Int) :
    Led '-' negative (Decimal.plain negative coefficient exponent) := by
  have hdigits := dash_not_mem_decimalDigits coefficient
  unfold Decimal.plain
  split
  · apply led_sign
    · simp [decimalDigits_ne_nil]
    · simp [hdigits]
  · apply led_sign
    · simp [Decimal.pointed]
    · exact dash_not_mem_pointed hdigits _

theorem led_int (n : Int) : Led '-' (decide (n < 0)) (toString n).toList := by
  rw [toList_toString]
  exact led_sign (decimalDigits_ne_nil _) (dash_not_mem_decimalDigits _)

private theorem led_wholeText {negative : Bool} {size : Nat} {s : String}
    (h : Literal.wholeText (withSign negative size) = .ok s) :
    Led '-' (negative && size != 0) s.toList := by
  have hsign : decide (withSign negative size < 0) = (negative && size != 0) := by
    cases negative <;> cases size <;> simp [withSign] <;> omega
  rw [Literal.eq_toString_of_wholeText h, ← hsign]
  exact led_int _

private theorem signed_lt_zero {unit : Rat} (hunit : 0 < unit) (negative : Bool) (size : Nat) :
    decide ((if negative then -(size * unit) else size * unit) < 0) =
      (negative && size != 0) := by
  have hsize : 0 < (size : Rat) * unit ↔ size ≠ 0 := by
    rw [mul_pos_iff_of_pos_right hunit, Nat.cast_pos, Nat.pos_iff_ne_zero]
  cases negative with
  | false =>
    have hnonneg : 0 ≤ (size : Rat) * unit := by positivity
    simp [not_lt.2 hnonneg]
  | true => simp [hsize, bne, beq_eq_decide]

/-! ## Decimal numbers -/

namespace Number.Decimal

theorem toNat?_eq_zero {coefficient size : Nat} {exponent : Int}
    (h : toNat? coefficient exponent = some size) : size = 0 ↔ coefficient = 0 := by
  have hunit : (10 : ℚ) ^ exponent ≠ 0 := by positivity
  rw [← @Nat.cast_eq_zero ℚ, ← toNat?_eq_some_iff.1 h, mul_eq_zero_iff_right hunit,
    Nat.cast_eq_zero]

theorem ne_zero_of_toNat? {coefficient : Nat} {exponent : Int}
    (h : toNat? coefficient exponent = none) : coefficient ≠ 0 := by
  rintro rfl
  cases h

theorem powerOfTen_pos (exponent : Int) : 0 < powerOfTen exponent := by
  rw [powerOfTen_eq_zpow]
  positivity

theorem toRat?_lt_zero (negative : Bool) (coefficient : Nat) (exponent : Int) :
    (finite negative coefficient exponent).toRat?.any (· < 0) =
      (negative && coefficient != 0) :=
  signed_lt_zero (powerOfTen_pos exponent) negative coefficient

end Number.Decimal

private theorem led_decimalText {negative : Bool} {coefficient : Nat} {exponent : Int} {s : String}
    (h : Literal.decimalText (.finite negative coefficient exponent) = .ok s) :
    Led '-' (negative && coefficient != 0) s.toList := by
  rw [Literal.decimalText] at h
  split at h
  · next size hsize =>
    have hzero : (size != 0) = (coefficient != 0) := by
      simp [bne, Decimal.toNat?_eq_zero hsize]
    rw [← hzero]
    exact led_wholeText h
  · next hnone =>
    have hne : (coefficient != 0) = true := by
      simpa using Decimal.ne_zero_of_toNat? hnone
    cases h
    rw [hne, Bool.and_true, String.toList_ofList]
    exact led_plain negative coefficient exponent

/-! ## Floating point numbers -/

namespace Number.Double

theorem toNat?_eq_zero {mantissa size : Nat} {exponent : Int}
    (h : toNat? mantissa exponent = some size) : size = 0 ↔ mantissa = 0 := by
  have hunit : (2 : ℚ) ^ exponent ≠ 0 := by positivity
  rw [← @Nat.cast_eq_zero ℚ, ← toNat?_eq_some_iff.1 h, mul_eq_zero_iff_right hunit,
    Nat.cast_eq_zero]

theorem ne_zero_of_toNat? {mantissa : Nat} {exponent : Int}
    (h : toNat? mantissa exponent = none) : mantissa ≠ 0 := by
  rintro rfl
  unfold toNat? at h
  split at h
  · cases h
  · simp at h

theorem shortest_ne_zero {mantissa : Nat} (h : mantissa ≠ 0) (exponent : Int) :
    (shortest mantissa exponent).1 ≠ 0 := by
  intro hzero
  have hlast := (shortest_shortest (Nat.pos_of_ne_zero h) exponent).last
  rw [hzero] at hlast
  exact hlast rfl

theorem toNat?_shortest {mantissa : Nat} {exponent : Int} (h : toNat? mantissa exponent = none) :
    Decimal.toNat? (shortest mantissa exponent).1 (shortest mantissa exponent).2 = none := by
  rw [Option.eq_none_iff_forall_ne_some]
  intro n hn
  have hreach := (shortest_shortest (Nat.pos_of_ne_zero (ne_zero_of_toNat? h)) exponent).reach
  rw [Decimal.toNat?_eq_some_iff.1 hn] at hreach
  have hplaces : exponent < 0 := by
    by_contra hwhole
    rw [toNat?, if_pos (not_lt.1 hwhole)] at h
    cases h
  obtain ⟨k, hk⟩ := Int.eq_ofNat_of_zero_le (by omega : 0 ≤ -exponent)
  obtain rfl : exponent = -(k : Int) := by omega
  have hunit : (0 : ℚ) < 2 ^ (-(k : Int)) := by positivity
  have hscaled : (n : ℚ) = (n * 2 ^ k : Nat) * 2 ^ (-(k : Int)) := by
    rw [zpow_neg, zpow_natCast]
    push_cast
    field_simp
  obtain ⟨hlow, hhigh⟩ := hreach.le
  rw [hscaled] at hlow hhigh
  replace hlow := le_of_mul_le_mul_right hlow hunit
  replace hhigh := le_of_mul_le_mul_right hhigh hunit
  have hle : mantissa < n * 2 ^ k + 1 := by
    have hcast : (mantissa : ℚ) < (n * 2 ^ k : Nat) + 1 := by linarith
    exact_mod_cast hcast
  have hge : n * 2 ^ k < mantissa + 1 := by
    have hcast : ((n * 2 ^ k : Nat) : ℚ) < mantissa + 1 := by linarith
    exact_mod_cast hcast
  rw [toNat?_eq_some_iff.2 (by rw [hscaled, (by omega : mantissa = n * 2 ^ k)])] at h
  cases h

theorem toRat?_lt_zero (negative : Bool) (mantissa : Nat) (exponent : Int) :
    (finite negative mantissa exponent).toRat?.any (· < 0) = (negative && mantissa != 0) :=
  signed_lt_zero (powerOfTwo_pos exponent) negative mantissa

end Number.Double

private theorem led_doubleText {negative : Bool} {mantissa : Nat} {exponent : Int} {s : String}
    (h : Literal.doubleText (.finite negative mantissa exponent) = .ok s) :
    Led '-' (negative && mantissa != 0) s.toList := by
  rw [Literal.doubleText] at h
  split at h
  · next size hsize =>
    have hzero : (size != 0) = (mantissa != 0) := by
      simp [bne, Double.toNat?_eq_zero hsize]
    rw [← hzero]
    exact led_wholeText h
  · next hnone =>
    have hne := Double.ne_zero_of_toNat? hnone
    have hsame : (mantissa != 0) = ((Double.shortest mantissa exponent).1 != 0) := by
      simp [bne, hne, Double.shortest_ne_zero hne exponent]
    rw [hsame]
    exact led_decimalText h

/-! ## Whole numbers and others -/

namespace Literal

theorem decimalText_of_whole {x : Decimal} {n : Int} (h : x.toRat? = some (n : ℚ)) :
    decimalText x = wholeText n := by
  cases x with
  | finite negative coefficient exponent =>
    rw [decimalText]
    split
    · next size hsize =>
      rw [Decimal.toRat?_of_toNat? hsize, Option.some.injEq, Int.cast_inj] at h
      rw [h]
    · next hnone => exact absurd h (Decimal.toRat?_ne_of_toNat? hnone n)
  | _ => cases h

theorem exists_decimalText_of_part {x : Decimal} (h : ∀ n : Int, x.toRat? ≠ some (n : ℚ)) :
    ∃ s, decimalText x = .ok s := by
  cases x with
  | finite negative coefficient exponent =>
    rw [decimalText]
    split
    · next size hsize => exact absurd (Decimal.toRat?_of_toNat? hsize) (h _)
    · exact ⟨_, rfl⟩
  | infinite | nan => exact ⟨_, rfl⟩

theorem doubleText_of_whole {x : Double} {n : Int} (h : x.toRat? = some (n : ℚ)) :
    doubleText x = wholeText n := by
  cases x with
  | finite negative mantissa exponent =>
    rw [doubleText]
    split
    · next size hsize =>
      rw [Double.toRat?_of_toNat? hsize, Option.some.injEq, Int.cast_inj] at h
      rw [h]
    · next hnone => exact absurd h (Double.toRat?_ne_of_toNat? hnone n)
  | _ => cases h

theorem exists_doubleText_of_part {x : Double} (h : ∀ n : Int, x.toRat? ≠ some (n : ℚ)) :
    ∃ s, doubleText x = .ok s := by
  cases x with
  | finite negative mantissa exponent =>
    rw [doubleText]
    split
    · next size hsize => exact absurd (Double.toRat?_of_toNat? hsize) (h _)
    · next hnone =>
      apply exists_decimalText_of_part
      exact Decimal.toRat?_ne_of_toNat? (Double.toNat?_shortest hnone)
  | infinite | nan => exact ⟨_, rfl⟩

/-! ## Literals -/

theorem wholeText_eq_error_iff {n : Int} {cause : Failure} :
    wholeText n = .error cause ↔ Number.isOverlong n.natAbs = true ∧ cause = .badValue := by
  cases hsize : Number.isOverlong n.natAbs with
  | false => simp [wholeText_of_short hsize]
  | true => simp [wholeText_of_overlong hsize, eq_comm]

private theorem eq_error_iff {value : Value} {written : Except Failure String} {cause : Failure}
    (hwhole : ∀ n : Int, value.rational? = some (n : ℚ) → written = wholeText n)
    (hpart : (∀ n : Int, value.rational? ≠ some (n : ℚ)) → ∃ s, written = .ok s) :
    written = .error cause ↔ value.isOverlong = true ∧ cause = .badValue := by
  by_cases h : ∃ n : Int, value.rational? = some (n : ℚ)
  · obtain ⟨n, hn⟩ := h
    rw [hwhole n hn, wholeText_eq_error_iff, Value.isOverlong_of_whole hn]
  · rw [not_exists] at h
    obtain ⟨s, rfl⟩ := hpart h
    simp [Value.isOverlong_of_part h]

theorem decimalText_eq_error_iff {label : Label} {x : Decimal} {cause : Failure} :
    decimalText x = .error cause ↔
      (Value.decimal label x).isOverlong = true ∧ cause = .badValue :=
  eq_error_iff (fun _ => decimalText_of_whole) exists_decimalText_of_part

theorem doubleText_eq_error_iff {label : Label} {x : Double} {cause : Failure} :
    doubleText x = .error cause ↔ (Value.float label x).isOverlong = true ∧ cause = .badValue :=
  eq_error_iff (fun _ => doubleText_of_whole) exists_doubleText_of_part

/-- What has a literal of its own is only refused where it is a whole number that is too long. -/
theorem scalar?_eq_error_iff {hostMinutes : Rat} {timezone value : Value} {cause : Failure} :
    scalar? hostMinutes timezone value = some (.error cause) ↔
      value.isOverlong = true ∧ cause = .badValue := by
  cases value with
  | int n =>
    rw [scalar?, Option.some.injEq, wholeText_eq_error_iff, Value.isOverlong_of_whole rfl]
  | float label x => rw [scalar?, Option.some.injEq, doubleText_eq_error_iff]
  | decimal label x => rw [scalar?, Option.some.injEq, decimalText_eq_error_iff]
  | bool b =>
    have hshort : (Value.bool b).isOverlong = false := by cases b <;> decide +kernel
    simp [scalar?, hshort]
  | _ => simp [scalar?, Value.isOverlong, Value.rational?]

end Literal

private theorem led_of_scalar {value : Value} (h : value.isFinite = true) (hostMinutes : Rat)
    (timezone : Value) : ∃ written, Literal.scalar? hostMinutes timezone value = some written ∧
      ∀ s, written = .ok s → Led '-' value.isNegative s.toList := by
  cases value with
  | bool b =>
    refine ⟨_, rfl, ?_⟩
    rintro s ⟨⟩
    refine ⟨(if b then "true" else "false").toList, ?_⟩
    cases b <;> decide
  | int n =>
    have hsign : (Value.int n).isNegative = decide (n < 0) := by
      simp [Value.isNegative, Value.rational?]
    refine ⟨_, rfl, fun s hs => ?_⟩
    rw [hsign, Literal.eq_toString_of_wholeText hs]
    exact led_int n
  | float label x =>
    cases x with
    | finite negative mantissa exponent =>
      have hsign : (Value.float label (.finite negative mantissa exponent)).isNegative =
          (negative && mantissa != 0) := Double.toRat?_lt_zero negative mantissa exponent
      rw [hsign]
      exact ⟨_, rfl, fun s => led_doubleText⟩
    | infinite | nan => cases h
  | decimal label x =>
    cases x with
    | finite negative coefficient exponent =>
      have hsign : (Value.decimal label (.finite negative coefficient exponent)).isNegative =
          (negative && coefficient != 0) := Decimal.toRat?_lt_zero negative coefficient exponent
      rw [hsign]
      exact ⟨_, rfl, fun s => led_decimalText⟩
    | infinite | nan => cases h
  | _ => cases h

theorem led_scalar {value : Value} (h : value.isFinite = true) (hshort : value.isOverlong = false)
    (hostMinutes : Rat) (timezone : Value) :
    ∃ s, Literal.scalar? hostMinutes timezone value = some (.ok s) ∧
      Led '-' value.isNegative s.toList := by
  obtain ⟨written, hwritten, hled⟩ := led_of_scalar h hostMinutes timezone
  cases written with
  | ok s => exact ⟨s, hwritten, hled s rfl⟩
  | error cause =>
    rw [(Literal.scalar?_eq_error_iff.1 hwritten).1] at hshort
    cases hshort

end SqlFragments
