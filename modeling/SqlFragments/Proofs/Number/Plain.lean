import Mathlib
import SqlFragments.Proofs.Number.Rounding
import SqlFragments.Proofs.Number.Whole

/-!
# Plain decimal notation

Numbers without an exponent: a minus sign where needed, digits, and perhaps a point with digits
behind it. What is written in this way reads back as the number, digit by digit.
-/

namespace SqlFragments.Number

open Text

/-! ## Reading -/

def readDigits? (cs : List Char) : Option Nat :=
  if cs.isEmpty then none else (cs.mapM asciiDigit?).map numeral

def readSize? (cs : List Char) : Option ℚ :=
  match cs.splitOn '.' with
  | [whole] => (readDigits? whole).map Nat.cast
  | [whole, places] => do
    let n ← readDigits? whole
    let rest ← readDigits? places
    return n + rest / 10 ^ places.length
  | _ => none

/-- A number in plain notation. No sign but a minus sign, no exponent, no blank and no digit of
another script is allowed. -/
def readPlain? : List Char → Option ℚ
  | '-' :: cs => (readSize? cs).map (-·)
  | cs => readSize? cs

def signed (negative : Bool) (size : ℚ) : ℚ := if negative then -size else size

theorem cast_withSign (negative : Bool) (size : Nat) :
    ((withSign negative size : Int) : ℚ) = signed negative size := by
  cases negative <;> simp [withSign, signed]

theorem withSign_natAbs (n : Int) : withSign (decide (n < 0)) n.natAbs = n := by
  unfold withSign
  split
  · next hsign =>
    rw [decide_eq_true_iff] at hsign
    omega
  · next hsign =>
    rw [decide_eq_true_iff] at hsign
    omega

theorem signed_ne_intCast {size : ℚ} (hsize : 0 ≤ size) (hpart : ∀ m : Nat, size ≠ m)
    (negative : Bool) (n : Int) : signed negative size ≠ n := by
  intro h
  have habs : size = (n.natAbs : ℚ) := by
    have hsigned : |signed negative size| = size := by
      cases negative <;> simp [signed, abs_of_nonneg hsize]
    rw [← hsigned, h, Nat.cast_natAbs, Int.cast_abs]
  exact hpart _ habs

theorem readDigits?_eq {cs : List Char} {n : Nat} (h : Spells cs n) (hne : cs ≠ []) :
    readDigits? cs = some n := by
  rw [readDigits?, if_neg (by simpa using hne)]
  exact h.mapM_eq asciiDigit?_digitChar

theorem readSize?_whole {cs : List Char} {n : Nat} (h : Spells cs n) (hne : cs ≠ []) :
    readSize? cs = some (n : ℚ) := by
  rw [readSize?, List.splitOn_eq_singleton (h.not_mem rfl)]
  dsimp only
  rw [readDigits?_eq h hne]
  rfl

theorem exists_pointed {digits : List Char} {n : Nat} (h : Spells digits n) (places : Nat) :
    ∃ whole rest, Decimal.pointed digits places = whole ++ '.' :: rest ∧
      Spells (whole ++ rest) n ∧ whole ≠ [] ∧ rest.length = places := by
  have hfilled := (Spells.zeros (places + 1 - digits.length)).append h
  rw [Nat.zero_mul, Nat.zero_add] at hfilled
  refine ⟨_, _, rfl, by rwa [List.take_append_drop], ?_, ?_⟩
  · apply List.ne_nil_of_length_pos
    simp only [List.length_take, List.length_append, List.length_replicate]
    omega
  · simp only [List.length_drop, List.length_append, List.length_replicate]
    omega

theorem readSize?_pointed {digits : List Char} {n places : Nat} (h : Spells digits n)
    (hplaces : 0 < places) :
    readSize? (Decimal.pointed digits places) = some (n / 10 ^ places : ℚ) := by
  obtain ⟨whole, rest, hpointed, hspells, hwhole, rfl⟩ := exists_pointed h places
  obtain ⟨front, back, hfront, hback, rfl⟩ := hspells.of_append
  rw [hpointed, readSize?, List.splitOn_append_cons_self_of_not_mem (hfront.not_mem rfl),
    List.splitOn_eq_singleton (hback.not_mem rfl)]
  dsimp only
  rw [readDigits?_eq hfront hwhole, readDigits?_eq hback (List.ne_nil_of_length_pos hplaces)]
  have hpower : (10 : ℚ) ^ rest.length ≠ 0 := by positivity
  simp [add_div, hpower]

theorem readPlain?_sign {cs : List Char} {size : ℚ} (negative : Bool)
    (hdash : cs.head? ≠ some '-') (h : readSize? cs = some size) :
    readPlain? (Decimal.sign negative ++ cs) = some (signed negative size) := by
  cases negative with
  | true =>
    show (readSize? cs).map (-·) = some (-size)
    rw [h]
    rfl
  | false =>
    show readPlain? cs = some size
    unfold readPlain?
    split
    · exact absurd rfl hdash
    · exact h

theorem head?_ne_dash {cs : List Char} {n : Nat} (h : Spells cs n) : cs.head? ≠ some '-' :=
  fun hhead => h.not_mem rfl (List.mem_of_mem_head? hhead)

theorem head?_pointed_ne_dash {digits : List Char} {n : Nat} (h : Spells digits n)
    (places : Nat) : (Decimal.pointed digits places).head? ≠ some '-' := by
  obtain ⟨whole, rest, hpointed, hspells, hwhole, -⟩ := exists_pointed h places
  obtain ⟨front, -, hfront, -⟩ := hspells.of_append
  rw [hpointed, List.head?_append_of_ne_nil whole hwhole]
  exact head?_ne_dash hfront

/-! ## Values -/

namespace Decimal

theorem powerOfTen_eq_zpow (e : Int) : powerOfTen e = (10 : ℚ) ^ e := power_eq_zpow 10 e

theorem toRat?_finite (negative : Bool) (coefficient : Nat) (exponent : Int) :
    (finite negative coefficient exponent).toRat? =
      some (signed negative (coefficient * (10 : ℚ) ^ exponent)) := by
  rw [toRat?, powerOfTen_eq_zpow, signed]

/-! ## Whole numbers -/

theorem split_eq (coefficient : Nat) (exponent : Int) :
    (coefficient : ℚ) * 10 ^ exponent =
      (split coefficient exponent).1 + (split coefficient exponent).2 * (10 : ℚ) ^ exponent := by
  unfold split
  split_ifs with hzero hwhole hsmall
  · simp [hzero]
  · rw [Nat.cast_mul, cast_pow_toNat 10 hwhole]
    simp
  · simp
  · have hunit := cast_pow_toNat_neg 10 hwhole
    have hpower : (10 : ℚ) ^ exponent ≠ 0 := by positivity
    have hdivision : (Nat.pow 10 (-exponent).toNat : ℚ) *
        (coefficient / Nat.pow 10 (-exponent).toNat : Nat) +
        (coefficient % Nat.pow 10 (-exponent).toNat : Nat) = coefficient := by
      exact_mod_cast Nat.div_add_mod coefficient (Nat.pow 10 (-exponent).toNat)
    rw [hunit] at hdivision
    push_cast at hdivision
    field_simp at hdivision
    linarith

private theorem rest_lt_one (coefficient : Nat) (exponent : Int) :
    (split coefficient exponent).2 * (10 : ℚ) ^ exponent < 1 := by
  have hsmall : ∀ {n : Nat}, ¬ 0 ≤ exponent → n < Nat.pow 10 (-exponent).toNat →
      (n : ℚ) * 10 ^ exponent < 1 := by
    intro n hplaces h
    have hpower : (0 : ℚ) < 10 ^ exponent := by positivity
    have hcast : (n : ℚ) < (Nat.pow 10 (-exponent).toNat : Nat) := by exact_mod_cast h
    rwa [cast_pow_toNat_neg 10 hplaces, Nat.cast_ofNat, ← one_div, lt_div_iff₀ hpower] at hcast
  unfold split
  split_ifs with hzero hwhole hbehind
  · simp
  · simp
  · exact hsmall hwhole ((lt_pow_length_decimalDigits coefficient).trans_le
      (Nat.pow_le_pow_right (by decide) hbehind))
  · exact hsmall hwhole (Nat.mod_lt coefficient (Nat.pow_pos (by decide)))

theorem toNat?_eq_some_iff {coefficient : Nat} {exponent : Int} {n : Nat} :
    toNat? coefficient exponent = some n ↔ (coefficient : ℚ) * 10 ^ exponent = n := by
  have hsplit := split_eq coefficient exponent
  have hrest := rest_lt_one coefficient exponent
  have hunit : (0 : ℚ) < 10 ^ exponent := by positivity
  have htoNat : toNat? coefficient exponent =
      if (split coefficient exponent).2 = 0 then some (split coefficient exponent).1
      else none := rfl
  rw [htoNat, Option.ite_none_right_eq_some, Option.some.injEq, hsplit]
  generalize (split coefficient exponent).1 = whole at hsplit ⊢
  generalize (split coefficient exponent).2 = rest at hsplit hrest ⊢
  constructor
  · rintro ⟨rfl, rfl⟩
    simp
  · intro hvalue
    -- A whole number plus a part below one is whole only without that part.
    have hnonneg : (0 : ℚ) ≤ rest * 10 ^ exponent := by positivity
    have hle : whole ≤ n := by
      have hcast : (whole : ℚ) ≤ n := by linarith
      exact_mod_cast hcast
    have hlt : n < whole + 1 := by
      have hcast : (n : ℚ) < whole + 1 := by linarith
      exact_mod_cast hcast
    obtain rfl : whole = n := by omega
    have hnothing : (rest : ℚ) * 10 ^ exponent = 0 := by linarith
    have hzero := (mul_eq_zero.1 hnothing).resolve_right hunit.ne'
    exact ⟨by exact_mod_cast hzero, rfl⟩

theorem toRat?_of_toNat? {negative : Bool} {coefficient size : Nat} {exponent : Int}
    (h : toNat? coefficient exponent = some size) :
    (finite negative coefficient exponent).toRat? = some ((withSign negative size : Int) : ℚ) := by
  rw [toRat?_finite, toNat?_eq_some_iff.1 h, cast_withSign]

theorem toRat?_ne_of_toNat? {negative : Bool} {coefficient : Nat} {exponent : Int}
    (h : toNat? coefficient exponent = none) (n : Int) :
    (finite negative coefficient exponent).toRat? ≠ some (n : ℚ) := by
  rw [toRat?_finite, Ne, Option.some.injEq]
  apply signed_ne_intCast (by positivity)
  intro m hm
  rw [toNat?_eq_some_iff.2 hm] at h
  cases h

end Decimal

namespace Double

theorem toRat?_finite (negative : Bool) (mantissa : Nat) (exponent : Int) :
    (finite negative mantissa exponent).toRat? =
      some (signed negative (mantissa * (2 : ℚ) ^ exponent)) := by
  rw [toRat?, powerOfTwo_eq_zpow, signed]

theorem toNat?_eq_some_iff {mantissa : Nat} {exponent : Int} {n : Nat} :
    toNat? mantissa exponent = some n ↔ (mantissa : ℚ) * 2 ^ exponent = n := by
  unfold toNat?
  split
  · next he =>
    have hvalue : (mantissa : ℚ) * 2 ^ exponent = (mantissa * Nat.pow 2 exponent.toNat : Nat) := by
      rw [Nat.cast_mul, cast_pow_toNat 2 he, Nat.cast_ofNat]
    rw [hvalue, Option.some.injEq, Nat.cast_inj]
  · next he =>
    have hpos : 0 < Nat.pow 2 (-exponent).toNat := Nat.pow_pos (by decide)
    have hvalue : (mantissa : ℚ) * 2 ^ exponent = n ↔
        mantissa = n * Nat.pow 2 (-exponent).toNat := by
      have hpower : (2 : ℚ) ^ exponent ≠ 0 := by positivity
      rw [← @Nat.cast_inj ℚ, Nat.cast_mul, cast_pow_toNat_neg 2 he, Nat.cast_ofNat,
        eq_mul_inv_iff_mul_eq₀ hpower]
    rw [hvalue]
    dsimp only
    rw [Option.ite_none_right_eq_some, Option.some.injEq, ← Nat.dvd_iff_mod_eq_zero]
    constructor
    · rintro ⟨hdvd, rfl⟩
      exact (Nat.div_mul_cancel hdvd).symm
    · rintro rfl
      exact ⟨Nat.dvd_mul_left _ _, Nat.mul_div_cancel n hpos⟩

theorem toRat?_of_toNat? {negative : Bool} {mantissa size : Nat} {exponent : Int}
    (h : toNat? mantissa exponent = some size) :
    (finite negative mantissa exponent).toRat? = some ((withSign negative size : Int) : ℚ) := by
  rw [toRat?_finite, toNat?_eq_some_iff.1 h, cast_withSign]

theorem toRat?_ne_of_toNat? {negative : Bool} {mantissa : Nat} {exponent : Int}
    (h : toNat? mantissa exponent = none) (n : Int) :
    (finite negative mantissa exponent).toRat? ≠ some (n : ℚ) := by
  rw [toRat?_finite, Ne, Option.some.injEq]
  apply signed_ne_intCast (by positivity)
  intro m hm
  rw [toNat?_eq_some_iff.2 hm] at h
  cases h

end Double

/-! ## Writing -/

theorem readPlain?_toString (n : Int) : readPlain? (toString n).toList = some (n : ℚ) := by
  have hspells := Spells.decimalDigits n.natAbs
  have hread := readSize?_whole hspells (decimalDigits_ne_nil n.natAbs)
  rw [toList_toString, readPlain?_sign _ (head?_ne_dash hspells) hread, ← cast_withSign,
    withSign_natAbs]

theorem readPlain?_plain (negative : Bool) (coefficient : Nat) {exponent : Int}
    (hexponent : exponent < 0) :
    readPlain? (Decimal.plain negative coefficient exponent) =
      some (signed negative (coefficient * 10 ^ exponent)) := by
  obtain ⟨places, hplaces⟩ := Int.eq_ofNat_of_zero_le (by omega : 0 ≤ -exponent)
  obtain rfl : exponent = -(places : Int) := by omega
  have hspells := Spells.decimalDigits coefficient
  rw [Decimal.plain, if_neg (by omega), neg_neg, Int.toNat_natCast, zpow_neg, zpow_natCast,
    ← div_eq_mul_inv]
  exact readPlain?_sign negative (head?_pointed_ne_dash hspells places)
    (readSize?_pointed hspells (by omega))

theorem readPlain?_decimalText {negative : Bool} {coefficient : Nat} {exponent : Int} {s : String}
    (h : Literal.decimalText (.finite negative coefficient exponent) = .ok s) :
    readPlain? s.toList = some (signed negative (coefficient * 10 ^ exponent)) := by
  rw [Literal.decimalText] at h
  split at h
  · next size hsize =>
    rw [Literal.eq_toString_of_wholeText h, readPlain?_toString, cast_withSign,
      Decimal.toNat?_eq_some_iff.1 hsize]
  · next hnone =>
    have hexponent : exponent < 0 := by
      by_contra hwhole
      obtain ⟨n, rfl⟩ := Int.eq_ofNat_of_zero_le (not_lt.1 hwhole)
      have hsome : Decimal.toNat? coefficient n = some (coefficient * 10 ^ n) :=
        Decimal.toNat?_eq_some_iff.2 (by simp)
      rw [hnone] at hsome
      cases hsome
    cases h
    rw [String.toList_ofList]
    exact readPlain?_plain negative coefficient hexponent

end SqlFragments.Number
