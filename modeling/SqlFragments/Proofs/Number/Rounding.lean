import Mathlib.Algebra.Order.Field.Rat
import Mathlib.Tactic.FieldSimp
import Mathlib.Tactic.Linarith
import Mathlib.Tactic.LinearCombination
import Mathlib.Tactic.Positivity
import Mathlib.Tactic.Ring
import SqlFragments.Number.Double

/-!
# Errors of rounding

Rounding to a double precision number changes a number by at most one part in `2 ^ 53`, as long as
its size is within the bounds of the exponent. Arithmetic rounds once, so each operation adds an
error of that size.
-/

namespace SqlFragments.Number

/-! ## The nearest whole number -/

private theorem abs_roundDiv_sub_le (num den : Nat) (hden : 0 < den) :
    |(roundDiv num den : ℚ) * den - num| ≤ den / 2 := by
  obtain ⟨hupper, hlower⟩ := roundDiv_near num den hden
  have hupper' : (2 : ℚ) * num ≤ (2 * roundDiv num den + 1) * den := by exact_mod_cast hupper
  have hlower' : (2 : ℚ) * roundDiv num den * den ≤ 2 * num + den := by exact_mod_cast hlower
  rw [abs_le]
  constructor <;> linarith

theorem abs_mul_den (q : ℚ) : |q| * q.den = q.num.natAbs := by
  have hden : (0 : ℚ) < q.den := by exact_mod_cast q.den_pos
  rw [Nat.cast_natAbs, Int.cast_abs, ← Rat.mul_den_eq_num, abs_mul, abs_of_pos hden]

private theorem abs_signed_sub (q size : ℚ) :
    |(if q.num < 0 then -size else size) - q| = abs (size - |q|) := by
  split
  · next hnegative =>
    rw [abs_of_neg (Rat.num_neg.1 hnegative), ← abs_neg]
    congr 1
    ring
  · next hpositive => rw [abs_of_nonneg (Rat.num_nonneg.1 (not_lt.1 hpositive))]

theorem abs_nearest_sub_le (q : ℚ) : |(nearest q : ℚ) - q| ≤ 1 / 2 := by
  have hden : (0 : ℚ) < q.den := by exact_mod_cast q.den_pos
  have hnear := abs_roundDiv_sub_le q.num.natAbs q.den q.den_pos
  have hsigned : (nearest q : ℚ) =
      if q.num < 0 then -(roundDiv q.num.natAbs q.den : ℚ) else roundDiv q.num.natAbs q.den := by
    unfold nearest
    split <;> push_cast <;> rfl
  rw [hsigned, abs_signed_sub]
  rw [← abs_mul_den q, ← sub_mul, abs_mul, abs_of_pos hden] at hnear
  nlinarith

theorem nearest_eq {q : ℚ} {n : Int} (h : |q - n| < 1 / 2) : nearest q = n := by
  have hnear := abs_nearest_sub_le q
  have hapart : |(nearest q - n : ℚ)| < 1 := by
    calc |(nearest q - n : ℚ)| = |(nearest q - q) + (q - n)| := by ring_nf
      _ ≤ |(nearest q : ℚ) - q| + |q - n| := abs_add_le _ _
      _ < 1 := by linarith
  have hwhole : |nearest q - n| < 1 := by exact_mod_cast hapart
  rw [abs_lt] at hwhole
  omega

/-! ## Powers -/

theorem cast_pow_toNat (base : Nat) {e : Int} (h : 0 ≤ e) :
    ((Nat.pow base e.toNat : Nat) : ℚ) = (base : ℚ) ^ e := by
  obtain ⟨n, rfl⟩ := Int.eq_ofNat_of_zero_le h
  rw [Int.toNat_natCast, zpow_natCast]
  exact Nat.cast_pow base n

theorem cast_pow_toNat_neg (base : Nat) {e : Int} (h : ¬ 0 ≤ e) :
    ((Nat.pow base (-e).toNat : Nat) : ℚ) = ((base : ℚ) ^ e)⁻¹ := by
  rw [cast_pow_toNat base (by omega), zpow_neg]

theorem power_eq_zpow (base : Nat) (e : Int) :
    (if 0 ≤ e then ((Nat.pow base e.toNat : Nat) : ℚ) else mkRat 1 (Nat.pow base (-e).toNat)) =
      (base : ℚ) ^ e := by
  split
  · next h => exact cast_pow_toNat base h
  · next h =>
    rw [Rat.mkRat_eq_div, cast_pow_toNat_neg base h, Int.cast_one, one_div, inv_inv]

namespace Double

theorem powerOfTwo_eq_zpow (e : Int) : powerOfTwo e = (2 : ℚ) ^ e := power_eq_zpow 2 e

theorem powerOfTwo_pos (e : Int) : 0 < powerOfTwo e := by
  rw [powerOfTwo_eq_zpow]
  exact zpow_pos two_pos e

theorem powerOfTwo_add (e f : Int) : powerOfTwo (e + f) = powerOfTwo e * powerOfTwo f := by
  simp only [powerOfTwo_eq_zpow]
  exact zpow_add₀ two_ne_zero e f

theorem powerOfTwo_le_iff {e f : Int} : powerOfTwo e ≤ powerOfTwo f ↔ e ≤ f := by
  simp only [powerOfTwo_eq_zpow]
  exact zpow_le_zpow_iff_right₀ one_lt_two

theorem powerOfTwo_natCast (n : Nat) : powerOfTwo n = (Nat.pow 2 n : Nat) := by
  rw [powerOfTwo, if_pos (Int.natCast_nonneg n), Int.toNat_natCast]

private theorem powerOfTwo_neg_mul (n : Nat) : powerOfTwo (-n) * powerOfTwo n = 1 := by
  rw [← powerOfTwo_add, neg_add_cancel]
  rfl

/-! ## Rounding once -/

private theorem not_below_iff (num den : Nat) (e : Int) :
    ¬ (if 0 ≤ e then num < den * Nat.pow 2 e.toNat else num * Nat.pow 2 (-e).toNat < den) ↔
      powerOfTwo e * den ≤ num := by
  split
  · next he =>
    obtain ⟨n, rfl⟩ := Int.eq_ofNat_of_zero_le he
    rw [powerOfTwo_natCast, Int.toNat_natCast, not_lt, mul_comm]
    exact_mod_cast Iff.rfl
  · next he =>
    obtain ⟨n, hn⟩ := Int.eq_ofNat_of_zero_le (by omega : 0 ≤ -e)
    obtain rfl : e = -(n : Int) := by omega
    rw [← mul_le_mul_iff_left₀ (powerOfTwo_pos n), mul_right_comm, powerOfTwo_neg_mul, one_mul,
      powerOfTwo_natCast, neg_neg, Int.toNat_natCast, not_lt]
    exact_mod_cast Iff.rfl

theorem exists_lowestBit_eq {num den : Nat} (hnum : num ≠ 0) (hden : 0 < den) :
    ∃ top, lowestBit num den = max (top - 52) (-1074) ∧ powerOfTwo top * den ≤ num ∧
      (num : ℚ) < powerOfTwo (top + 1) * den := by
  have hnumber : powerOfTwo num.log2 ≤ num ∧ num < powerOfTwo (num.log2 + 1) := by
    have hpower := powerOfTwo_natCast (num.log2 + 1)
    rw [Nat.cast_succ] at hpower
    rw [powerOfTwo_natCast, hpower]
    exact ⟨by exact_mod_cast Nat.log2_self_le hnum, by exact_mod_cast Nat.lt_log2_self⟩
  have hunder : powerOfTwo den.log2 ≤ den ∧ den < powerOfTwo (den.log2 + 1) := by
    have hpower := powerOfTwo_natCast (den.log2 + 1)
    rw [Nat.cast_succ] at hpower
    rw [powerOfTwo_natCast, hpower]
    exact ⟨by exact_mod_cast Nat.log2_self_le hden.ne', by exact_mod_cast Nat.lt_log2_self⟩
  have hlower : powerOfTwo ((num.log2 : Int) - den.log2 - 1) * den ≤ num := by
    have hsplit : ((num.log2 : Int) - den.log2 - 1) + (den.log2 + 1) = num.log2 := by omega
    calc powerOfTwo ((num.log2 : Int) - den.log2 - 1) * den
        ≤ powerOfTwo ((num.log2 : Int) - den.log2 - 1) * powerOfTwo (den.log2 + 1) :=
          mul_le_mul_of_nonneg_left hunder.2.le (powerOfTwo_pos _).le
      _ = powerOfTwo num.log2 := by rw [← powerOfTwo_add, hsplit]
      _ ≤ num := hnumber.1
  have hupper : (num : ℚ) < powerOfTwo ((num.log2 : Int) - den.log2 + 1) * den := by
    have hsplit : ((num.log2 : Int) - den.log2 + 1) + den.log2 = num.log2 + 1 := by omega
    calc (num : ℚ) < powerOfTwo (num.log2 + 1) := hnumber.2
      _ = powerOfTwo ((num.log2 : Int) - den.log2 + 1) * powerOfTwo den.log2 := by
          rw [← powerOfTwo_add, hsplit]
      _ ≤ powerOfTwo ((num.log2 : Int) - den.log2 + 1) * den :=
          mul_le_mul_of_nonneg_left hunder.1 (powerOfTwo_pos _).le
  have htest := not_below_iff num den ((num.log2 : Int) - den.log2)
  by_cases hbelow : if 0 ≤ (num.log2 : Int) - den.log2 then
      num < den * Nat.pow 2 ((num.log2 : Int) - den.log2).toNat
    else num * Nat.pow 2 (-((num.log2 : Int) - den.log2)).toNat < den
  · refine ⟨_, congrArg (fun top : Int => max (top - 52) (-1074)) (if_pos hbelow), hlower, ?_⟩
    rw [sub_add_cancel]
    exact not_le.1 fun hle => htest.2 hle hbelow
  · exact ⟨_, congrArg (fun top : Int => max (top - 52) (-1074)) (if_neg hbelow),
      htest.1 hbelow, hupper⟩

theorem powerOfTwo_lowestBit_mul_le {num den : Nat} (hnum : num ≠ 0) (hden : 0 < den)
    (hnormal : powerOfTwo (-1022) * den ≤ num) :
    powerOfTwo (lowestBit num den + 52) * den ≤ num := by
  obtain ⟨top, htop, hle, -⟩ := exists_lowestBit_eq hnum hden
  rw [htop]
  rcases max_choice (top - 52) (-1074 : Int) with hmax | hmax
  · rw [hmax, sub_add_cancel]
    exact hle
  · rw [hmax]
    exact hnormal

private theorem abs_mantissa_sub_le (num : Nat) {den : Nat} (hden : 0 < den) (e : Int) :
    |((if 0 ≤ e then roundDiv num (den * Nat.pow 2 e.toNat)
        else roundDiv (num * Nat.pow 2 (-e).toNat) den : Nat) : ℚ) * powerOfTwo e * den - num| ≤
      powerOfTwo e * den / 2 := by
  split
  · next he =>
    obtain ⟨n, rfl⟩ := Int.eq_ofNat_of_zero_le he
    have hnear := abs_roundDiv_sub_le num (den * Nat.pow 2 n)
      (Nat.mul_pos hden (Nat.pow_pos Nat.two_pos))
    rw [Nat.cast_mul, ← powerOfTwo_natCast, ← mul_assoc, mul_right_comm] at hnear
    rwa [mul_comm (powerOfTwo n)]
  · next he =>
    obtain ⟨n, hn⟩ := Int.eq_ofNat_of_zero_le (by omega : 0 ≤ -e)
    obtain rfl : e = -(n : Int) := by omega
    have hnear := abs_roundDiv_sub_le (num * Nat.pow 2 n) den hden
    have hunit := powerOfTwo_neg_mul n
    rw [Nat.cast_mul, ← powerOfTwo_natCast] at hnear
    rw [neg_neg, Int.toNat_natCast]
    generalize ((roundDiv (num * Nat.pow 2 n) den : Nat) : ℚ) = mantissa at hnear ⊢
    calc |mantissa * powerOfTwo (-n) * den - num|
        = |(mantissa * den - num * powerOfTwo n) * powerOfTwo (-n)| := by
          congr 1
          linear_combination (num : ℚ) * hunit
      _ = |mantissa * den - num * powerOfTwo n| * powerOfTwo (-n) := by
          rw [abs_mul, abs_of_pos (powerOfTwo_pos (-n))]
      _ ≤ den / 2 * powerOfTwo (-n) :=
          mul_le_mul_of_nonneg_right hnear (powerOfTwo_pos (-n)).le
      _ = powerOfTwo (-n) * den / 2 := by ring

private theorem toRat?_carried (negative : Bool) (mantissa : Nat) {e : Int} (hlimit : e ≤ 970) :
    (if mantissa = 0 then zero negative
      else
        let (mantissa, exponent) :=
          if mantissa = Nat.pow 2 53 then (Nat.pow 2 52, e + 1) else (mantissa, e)
        if exponent > 971 then infinite negative else finite negative mantissa exponent).toRat? =
      some (if negative then -(mantissa * powerOfTwo e) else mantissa * powerOfTwo e) := by
  split
  · next hzero =>
    rw [hzero]
    simp [zero, toRat?]
  · split
    next m e' hpair =>
    split at hpair
    · next hgrown =>
      cases hpair
      have hsame : ((Nat.pow 2 52 : Nat) : ℚ) * powerOfTwo (e + 1) =
          mantissa * powerOfTwo e := by
        rw [hgrown, ← powerOfTwo_natCast, ← powerOfTwo_natCast, ← powerOfTwo_add,
          ← powerOfTwo_add]
        congr 1
        omega
      rw [if_neg (by omega), toRat?, hsame]
    · cases hpair
      rw [if_neg (by omega), toRat?]

/-- Rounding errs by at most half of the lowest bit that is kept. -/
theorem abs_round_sub_le {num den : Nat} (negative : Bool) (hnum : num ≠ 0) (hden : 0 < den)
    (hlimit : lowestBit num den ≤ 970) :
    ∃ size : ℚ, (round negative num den).toRat? = some (if negative then -size else size) ∧
      |size * den - num| ≤ powerOfTwo (lowestBit num den) * den / 2 := by
  rw [round, if_neg hnum]
  exact ⟨_, toRat?_carried negative _ hlimit, abs_mantissa_sub_le num hden _⟩

/-! ## Errors of operations -/

structure Normal (q : ℚ) : Prop where
  least : powerOfTwo (-1022) ≤ |q|
  limit : |q| ≤ powerOfTwo 1022

/-- A double precision number that differs from a number by at most one part in `2 ^ 53`. -/
def Rounds (x : Double) (q : ℚ) : Prop :=
  ∃ a, x.toRat? = some a ∧ |a - q| ≤ |q| * powerOfTwo (-53)

theorem rounds_ofRat {q : ℚ} (h : Normal q) : Rounds (ofRat q) q := by
  have hden : (0 : ℚ) < q.den := by exact_mod_cast q.den_pos
  have hsize := abs_mul_den q
  have hnum : q.num.natAbs ≠ 0 := by
    have hpos : 0 < |q| * q.den := mul_pos ((powerOfTwo_pos _).trans_le h.least) hden
    rw [hsize] at hpos
    exact_mod_cast hpos.ne'
  have hnormal : powerOfTwo (-1022) * q.den ≤ q.num.natAbs := by
    rw [← hsize]
    exact mul_le_mul_of_nonneg_right h.least hden.le
  have hlowest := powerOfTwo_lowestBit_mul_le hnum q.den_pos hnormal
  rw [← hsize, mul_le_mul_iff_left₀ hden] at hlowest
  have hlimit : lowestBit q.num.natAbs q.den ≤ 970 := by
    have hle := powerOfTwo_le_iff.1 (hlowest.trans h.limit)
    omega
  obtain ⟨size, hround, hnear⟩ := abs_round_sub_le (q.num < 0) hnum q.den_pos hlimit
  rw [← hsize, ← sub_mul, abs_mul, abs_of_pos hden, mul_div_right_comm,
    mul_le_mul_iff_left₀ hden] at hnear
  refine ⟨_, hround, ?_⟩
  simp only [decide_eq_true_eq]
  rw [abs_signed_sub]
  have hbit : powerOfTwo (lowestBit q.num.natAbs q.den) / 2 =
      powerOfTwo (lowestBit q.num.natAbs q.den + 52) * powerOfTwo (-53) := by
    have hhalf : powerOfTwo (-1) = 1 / 2 := by decide +kernel
    have hsum : lowestBit q.num.natAbs q.den + 52 + -53 = lowestBit q.num.natAbs q.den + -1 := by
      omega
    rw [← powerOfTwo_add, hsum, powerOfTwo_add, hhalf, mul_one_div]
  calc abs (size - |q|) ≤ powerOfTwo (lowestBit q.num.natAbs q.den) / 2 := hnear
    _ = powerOfTwo (lowestBit q.num.natAbs q.den + 52) * powerOfTwo (-53) := hbit
    _ ≤ |q| * powerOfTwo (-53) := mul_le_mul_of_nonneg_right hlowest (powerOfTwo_pos _).le

theorem rounds_rounded {op : ℚ → ℚ → ℚ} {sign : Bool} {x y : Double} {a b : ℚ}
    (hx : x.toRat? = some a) (hy : y.toRat? = some b) (h : op a b = 0 ∨ Normal (op a b)) :
    Rounds (rounded op sign x y) (op a b) := by
  rw [rounded, hx, hy]
  dsimp only
  split
  · next hzero =>
    refine ⟨0, ?_, by simp [hzero]⟩
    simp [zero, toRat?]
  · next hnonzero => exact rounds_ofRat (h.resolve_left hnonzero)

theorem toRat?_negate (x : Double) : x.negate.toRat? = x.toRat?.map (-·) := by
  cases x with
  | finite negative mantissa exponent => cases negative <;> simp [negate, toRat?]
  | _ => rfl

private theorem eq_finite_of_toRat? {x : Double} {a : ℚ} (h : x.toRat? = some a) :
    ∃ negative mantissa exponent, x = finite negative mantissa exponent := by
  cases x with
  | finite negative mantissa exponent => exact ⟨_, _, _, rfl⟩
  | _ => cases h

variable {x y : Double} {a b : ℚ} (hx : x.toRat? = some a) (hy : y.toRat? = some b)
include hx hy

theorem rounds_add (h : a + b = 0 ∨ Normal (a + b)) : Rounds (x.add y) (a + b) := by
  obtain ⟨_, _, _, rfl⟩ := eq_finite_of_toRat? hx
  obtain ⟨_, _, _, rfl⟩ := eq_finite_of_toRat? hy
  exact rounds_rounded hx hy h

theorem rounds_mul (h : a * b = 0 ∨ Normal (a * b)) : Rounds (x.mul y) (a * b) := by
  obtain ⟨_, _, _, rfl⟩ := eq_finite_of_toRat? hx
  obtain ⟨_, _, _, rfl⟩ := eq_finite_of_toRat? hy
  exact rounds_rounded hx hy h

theorem rounds_div (h : a / b = 0 ∨ Normal (a / b)) : Rounds (x.div y) (a / b) :=
  rounds_rounded hx hy h

end Double

end SqlFragments.Number
