import Mathlib
import SqlFragments.Proofs.Number.Rounding

/-!
# What rounds to a number

The numbers that round to a double precision number are those between the middles of it and its
neighbours. A middle belongs to the neighbour with the even mantissa. Below a power of two the
neighbours stand twice as close.
-/

namespace SqlFragments.Number

def Within (closed : Bool) (low high q : ℚ) : Prop :=
  if closed then low ≤ q ∧ q ≤ high else low < q ∧ q < high

namespace Within

variable {closed : Bool} {low high q r s : ℚ}

theorem le (h : Within closed low high q) : low ≤ q ∧ q ≤ high := by
  cases closed with
  | true => exact h
  | false => exact ⟨h.1.le, h.2.le⟩

theorem of_lt (hlow : low < q) (hhigh : q < high) : Within closed low high q := by
  cases closed with
  | true => exact ⟨hlow.le, hhigh.le⟩
  | false => exact ⟨hlow, hhigh⟩

theorem between (hq : Within closed low high q) (hs : Within closed low high s) (hqr : q ≤ r)
    (hrs : r ≤ s) : Within closed low high r := by
  cases closed with
  | true => exact ⟨hq.1.trans hqr, hrs.trans hs.2⟩
  | false => exact ⟨hq.1.trans_le hqr, hrs.trans_lt hs.2⟩

theorem mul_iff {unit : ℚ} (hunit : 0 < unit) :
    Within closed (low * unit) (high * unit) (q * unit) ↔ Within closed low high q := by
  cases closed <;> simp [Within, hunit]

end Within

/-! ## The nearest whole number -/

/-- Nearer to a whole number than to any other. A half belongs to the even neighbour. -/
def NearWhole (n : Nat) (q : ℚ) : Prop := Within (n % 2 = 0) (n - 1 / 2) (n + 1 / 2) q

theorem NearWhole.le {n : Nat} {q : ℚ} (h : NearWhole n q) : (n : ℚ) - 1 / 2 ≤ q ∧ q ≤ n + 1 / 2 :=
  Within.le h

theorem NearWhole.le_of_le {n k : Nat} {q : ℚ} (h : NearWhole n q) (hk : (k : ℚ) ≤ q) : k ≤ n := by
  have hcast : (k : ℚ) < (n + 1 : Nat) := by
    push_cast
    linarith [h.le.2]
  have hlt : k < n + 1 := by exact_mod_cast hcast
  exact Nat.le_of_lt_succ hlt

theorem NearWhole.ge_of_ge {n k : Nat} {q : ℚ} (h : NearWhole n q) (hk : q ≤ k) : n ≤ k := by
  have hcast : (n : ℚ) < (k + 1 : Nat) := by
    push_cast
    linarith [h.le.1]
  have hlt : n < k + 1 := by exact_mod_cast hcast
  exact Nat.le_of_lt_succ hlt

theorem nearWhole_roundDiv (num : Nat) {den : Nat} (hden : 0 < den) :
    NearWhole (roundDiv num den) (num / den) := by
  have hden' : (0 : ℚ) < den := by exact_mod_cast hden
  have hquotient : (num : ℚ) / den = (num / den : Nat) + (num % den : Nat) / den := by
    have hsplit : (den : ℚ) * (num / den : Nat) + (num % den : Nat) = num := by
      exact_mod_cast Nat.div_add_mod num den
    field_simp
    linarith
  have hrest : (0 : ℚ) ≤ (num % den : Nat) / den := by positivity
  have hhalf : (2 * (num % den) < den ↔ ((num % den : Nat) : ℚ) / den < 1 / 2) ∧
      (2 * (num % den) > den ↔ 1 / 2 < ((num % den : Nat) : ℚ) / den) := by
    rw [div_lt_iff₀ hden', lt_div_iff₀ hden', ← @Nat.cast_lt ℚ, gt_iff_lt, ← @Nat.cast_lt ℚ,
      Nat.cast_mul]
    constructor <;> constructor <;> intro h <;> norm_num at h ⊢ <;> linarith
  have hone : ((num % den : Nat) : ℚ) / den < 1 := by
    rw [div_lt_one hden']
    exact_mod_cast Nat.mod_lt num hden
  rw [hquotient, roundDiv]
  simp only [hhalf.1, hhalf.2]
  generalize ((num % den : Nat) : ℚ) / den = rest at *
  generalize num / den = whole
  split_ifs with hbelow habove
  · exact Within.of_lt (by linarith) (by linarith)
  · exact Within.of_lt (by push_cast; linarith) (by push_cast; linarith)
  · -- A rest of one half: the even one of the two neighbours is taken.
    obtain rfl : rest = 1 / 2 := le_antisymm (not_lt.1 habove) (not_lt.1 hbelow)
    have heven : (whole + whole % 2) % 2 = 0 := by omega
    rw [NearWhole, decide_eq_true heven]
    rcases Nat.mod_two_eq_zero_or_one whole with hmod | hmod
    · rw [hmod]
      exact ⟨by push_cast; linarith, by push_cast; linarith⟩
    · rw [hmod]
      exact ⟨by push_cast; linarith, by push_cast; linarith⟩

theorem NearWhole.unique {n m : Nat} {q : ℚ} (hn : NearWhole n q) (hm : NearWhole m q) :
    n = m := by
  wlog hlt : n < m generalizing n m
  · rcases (not_lt.1 hlt).lt_or_eq with hgt | heq
    · exact (this hm hn hgt).symm
    · exact heq.symm
  exfalso
  have hnext : m ≤ n + 1 := by
    have hcast : (m : ℚ) ≤ (n + 1 : Nat) := by
      push_cast
      linarith [hn.le.2, hm.le.1]
    exact_mod_cast hcast
  obtain rfl : m = n + 1 := by omega
  have hmiddle : q = n + 1 / 2 := by
    have hlow := hm.le.1
    push_cast at hlow
    linarith [hn.le.2]
  rcases Nat.mod_two_eq_zero_or_one n with hmod | hmod
  · have hodd : decide ((n + 1) % 2 = 0) = false := decide_eq_false (by omega)
    rw [NearWhole, hodd] at hm
    have hlow := hm.1
    push_cast at hlow
    linarith
  · have hodd : decide (n % 2 = 0) = false := decide_eq_false (by omega)
    rw [NearWhole, hodd] at hn
    linarith [hn.2]

theorem roundDiv_eq_iff {num den n : Nat} (hden : 0 < den) :
    roundDiv num den = n ↔ NearWhole n (num / den) := by
  constructor
  · rintro rfl
    exact nearWhole_roundDiv num hden
  · exact (nearWhole_roundDiv num hden).unique

namespace Double

/-! ## The nearest number -/

/-- Half of the distance to the neighbour below, in quarters of the lowest bit. -/
def lowGap (mantissa : Nat) (exponent : Int) : Nat :=
  if mantissa = Nat.pow 2 52 ∧ -1074 < exponent then 1 else 2

/-- What is nearer to a positive number than to its neighbours. -/
def Reach (mantissa : Nat) (exponent : Int) (q : ℚ) : Prop :=
  Within (mantissa % 2 = 0) ((mantissa - lowGap mantissa exponent / 4) * 2 ^ exponent)
    ((mantissa + 1 / 2) * 2 ^ exponent) q

/-- A positive number as it is kept: with 53 bits, or fewer ones at the least exponent. -/
structure Canonical (mantissa : Nat) (exponent : Int) : Prop where
  pos : 0 < mantissa
  bits : mantissa < 2 ^ 53
  full : exponent = -1074 ∨ 2 ^ 52 ≤ mantissa
  least : -1074 ≤ exponent
  most : exponent ≤ 971

variable {num den mantissa : Nat} {exponent : Int} {negative : Bool}

theorem lowestBit_eq_iff (hnum : num ≠ 0) (hden : 0 < den) :
    lowestBit num den = exponent ↔ -1074 ≤ exponent ∧
      (num / den : ℚ) < 2 ^ 53 * 2 ^ exponent ∧
      (exponent = -1074 ∨ 2 ^ 52 * 2 ^ exponent ≤ (num / den : ℚ)) := by
  have hden' : (0 : ℚ) < den := by exact_mod_cast hden
  have hpower : ∀ k : Nat, (2 : ℚ) ^ k * 2 ^ exponent = powerOfTwo (exponent + k) := by
    intro k
    rw [powerOfTwo_eq_zpow, zpow_add₀ two_ne_zero, zpow_natCast, mul_comm]
  obtain ⟨top, htop, hlow, hhigh⟩ := exists_lowestBit_eq hnum hden
  rw [← le_div_iff₀ hden'] at hlow
  rw [← div_lt_iff₀ hden'] at hhigh
  rw [htop, hpower, hpower]
  push_cast
  generalize (num / den : ℚ) = q at hlow hhigh ⊢
  have hlt : ∀ {e : Int}, q < powerOfTwo e ↔ top < e := by
    intro e
    constructor
    · intro h
      by_contra hle
      exact (hlow.trans_lt h).not_ge (powerOfTwo_le_iff.2 (not_lt.1 hle))
    · intro h
      exact hhigh.trans_le (powerOfTwo_le_iff.2 h)
  rw [← not_lt (a := q), hlt, hlt]
  omega

def mantissaAt (num den : Nat) (exponent : Int) : Nat :=
  if 0 ≤ exponent then roundDiv num (den * Nat.pow 2 exponent.toNat)
  else roundDiv (num * Nat.pow 2 (-exponent).toNat) den

theorem mantissaAt_eq_iff (hden : 0 < den) :
    mantissaAt num den exponent = mantissa ↔ NearWhole mantissa (num / den / 2 ^ exponent) := by
  unfold mantissaAt
  split
  · next he =>
    have hpos : 0 < den * Nat.pow 2 exponent.toNat := Nat.mul_pos hden (Nat.pow_pos Nat.two_pos)
    rw [roundDiv_eq_iff hpos, Nat.cast_mul, cast_pow_toNat 2 he, div_div, Nat.cast_ofNat]
  · next he =>
    rw [roundDiv_eq_iff hden, Nat.cast_mul, cast_pow_toNat_neg 2 he, mul_div_right_comm,
      ← div_eq_mul_inv, Nat.cast_ofNat]

private def carry (negative : Bool) (mantissa : Nat) (exponent : Int) : Double :=
  let (mantissa, exponent) :=
    if mantissa = Nat.pow 2 53 then (Nat.pow 2 52, exponent + 1) else (mantissa, exponent)
  if exponent > 971 then infinite negative else finite negative mantissa exponent

private theorem round_eq (hnum : num ≠ 0) (hmantissa : mantissaAt num den (lowestBit num den) ≠ 0) :
    round negative num den =
      carry negative (mantissaAt num den (lowestBit num den)) (lowestBit num den) := by
  rw [round, if_neg hnum]
  exact if_neg hmantissa

theorem reach_iff {q : ℚ} : Reach mantissa exponent q ↔
    Within (mantissa % 2 = 0) (mantissa - lowGap mantissa exponent / 4) (mantissa + 1 / 2)
      (q / 2 ^ exponent) := by
  have hunit : (0 : ℚ) < 2 ^ exponent := by positivity
  have hscaled : q / 2 ^ exponent * 2 ^ exponent = q := div_mul_cancel₀ q hunit.ne'
  conv_lhs => rw [← hscaled]
  exact Within.mul_iff hunit

theorem lowGap_le (mantissa : Nat) (exponent : Int) : (lowGap mantissa exponent : ℚ) ≤ 2 := by
  unfold lowGap
  split <;> norm_num

theorem Reach.le {q : ℚ} (h : Reach mantissa exponent q) :
    (mantissa - 1 / 2 : ℚ) * 2 ^ exponent ≤ q ∧ q ≤ (mantissa + 1 / 2) * 2 ^ exponent := by
  have hunit : (0 : ℚ) < 2 ^ exponent := by positivity
  have hgap := lowGap_le mantissa exponent
  refine ⟨le_trans ?_ (Within.le h).1, (Within.le h).2⟩
  exact mul_le_mul_of_nonneg_right (by linarith) hunit.le

theorem reach_self (mantissa : Nat) (exponent : Int) :
    Reach mantissa exponent (mantissa * 2 ^ exponent) := by
  have hunit : (0 : ℚ) < 2 ^ exponent := by positivity
  have hgap : (0 : ℚ) < lowGap mantissa exponent := by
    unfold lowGap
    split <;> norm_num
  apply Within.of_lt <;> apply mul_lt_mul_of_pos_right _ hunit <;> linarith

theorem Reach.pos {q : ℚ} (hpos : 0 < mantissa) (h : Reach mantissa exponent q) : 0 < q := by
  have hunit : (0 : ℚ) < 2 ^ exponent := by positivity
  have hone : (1 : ℚ) ≤ mantissa := by exact_mod_cast hpos
  have hhalf : (0 : ℚ) < (mantissa - 1 / 2) * 2 ^ exponent := mul_pos (by linarith) hunit
  exact hhalf.trans_le h.le.1

theorem Canonical.cast_le (h : Canonical mantissa exponent) : (mantissa : ℚ) ≤ 2 ^ 53 - 1 := by
  have hcast : ((mantissa + 1 : Nat) : ℚ) ≤ (2 ^ 53 : Nat) := by exact_mod_cast h.bits
  push_cast at hcast
  linarith

theorem reach_iff_nearWhole {q : ℚ} (hfull : exponent = -1074 ∨ 2 ^ 52 * 2 ^ exponent ≤ q) :
    Reach mantissa exponent q ↔ NearWhole mantissa (q / 2 ^ exponent) := by
  have hunit : (0 : ℚ) < 2 ^ exponent := by positivity
  rw [reach_iff, NearWhole, lowGap]
  split_ifs with hgap
  · -- At a power of two the lower bounds differ, but the quotient is not below the number.
    obtain ⟨rfl, hexponent⟩ := hgap
    have hlow := (le_div_iff₀ hunit).2 (hfull.resolve_left (by omega))
    have heven : decide (Nat.pow 2 52 % 2 = 0) = true := rfl
    have hpower : ((Nat.pow 2 52 : Nat) : ℚ) = 2 ^ 52 := by exact_mod_cast rfl
    rw [heven, hpower]
    constructor <;> intro h <;> exact ⟨by push_cast; linarith, h.2⟩
  · norm_num

/-- Below a power of two the lowest bit is that of the smaller numbers, and the power is rounded to
with a mantissa of 54 bits. -/
theorem reach_iff_nearWhole_carried {q : ℚ} (hleast : -1074 < exponent)
    (hbelow : q < 2 ^ 52 * 2 ^ exponent) :
    Reach (Nat.pow 2 52) exponent q ↔ NearWhole (Nat.pow 2 53) (q / 2 ^ (exponent - 1)) := by
  have hunit : (0 : ℚ) < 2 ^ exponent := by positivity
  have hhalf : q / 2 ^ (exponent - 1) = 2 * (q / 2 ^ exponent) := by
    rw [zpow_sub_one₀ two_ne_zero]
    field_simp
  have hless := (div_lt_iff₀ hunit).2 hbelow
  have heven : decide (Nat.pow 2 52 % 2 = 0) = true := rfl
  have hpower : ((Nat.pow 2 52 : Nat) : ℚ) = 2 ^ 52 := by exact_mod_cast rfl
  have hpower' : ((Nat.pow 2 53 : Nat) : ℚ) = 2 ^ 53 := by exact_mod_cast rfl
  rw [reach_iff, NearWhole, lowGap, if_pos ⟨rfl, hleast⟩, hhalf, heven, hpower, hpower']
  constructor <;> intro h <;> have hlow := h.1 <;> constructor <;> push_cast at hlow ⊢ <;> linarith

private theorem round_of_full (negative : Bool) (hnum : num ≠ 0) (hden : 0 < den)
    (h : Canonical mantissa exponent) (hreach : Reach mantissa exponent (num / den))
    (hfull : exponent = -1074 ∨ 2 ^ 52 * 2 ^ exponent ≤ (num / den : ℚ)) :
    round negative num den = finite negative mantissa exponent := by
  have hunit : (0 : ℚ) < 2 ^ exponent := by positivity
  have hbelow : (num / den : ℚ) < 2 ^ 53 * 2 ^ exponent :=
    hreach.le.2.trans_lt (mul_lt_mul_of_pos_right (by linarith [h.cast_le]) hunit)
  have hlowest := (lowestBit_eq_iff hnum hden).2 ⟨h.least, hbelow, hfull⟩
  have hmantissa : mantissaAt num den (lowestBit num den) = mantissa := by
    rw [hlowest, mantissaAt_eq_iff hden]
    exact (reach_iff_nearWhole hfull).1 hreach
  have hbits : mantissa ≠ Nat.pow 2 53 := h.bits.ne
  rw [round_eq hnum (hmantissa.trans_ne h.pos.ne'), hmantissa, hlowest, carry, if_neg hbits]
  exact if_neg (not_lt.2 h.most)

private theorem round_of_carried (negative : Bool) (hnum : num ≠ 0) (hden : 0 < den)
    (hleast : -1074 < exponent) (hmost : exponent ≤ 971)
    (hreach : Reach (Nat.pow 2 52) exponent (num / den))
    (hunder : (num / den : ℚ) < 2 ^ 52 * 2 ^ exponent) :
    round negative num den = finite negative (Nat.pow 2 52) exponent := by
  have hnear := (reach_iff_nearWhole_carried hleast hunder).1 hreach
  have hlowest : lowestBit num den = exponent - 1 := by
    have hdouble : (2 : ℚ) ^ exponent = 2 * 2 ^ (exponent - 1) := by
      rw [← zpow_one_add₀ two_ne_zero, add_sub_cancel]
    have hhalfunit : (0 : ℚ) < 2 ^ (exponent - 1) := by positivity
    have hpower : ((Nat.pow 2 53 : Nat) : ℚ) = 2 ^ 53 := by exact_mod_cast rfl
    have hlow := hnear.le.1
    rw [hpower] at hlow
    rw [lowestBit_eq_iff hnum hden, ← le_div_iff₀ hhalfunit]
    exact ⟨by omega, by rw [hdouble] at hunder; linarith, .inr (by linarith)⟩
  have hgrown : mantissaAt num den (lowestBit num den) = Nat.pow 2 53 := by
    rw [hlowest, mantissaAt_eq_iff hden]
    exact hnear
  rw [round_eq hnum (hgrown.trans_ne (by decide)), hgrown, hlowest, carry, if_pos rfl,
    sub_add_cancel]
  exact if_neg (not_lt.2 hmost)

/-- What is within the reach of a number rounds to it. -/
theorem round_of_reach (negative : Bool) (hden : 0 < den) (h : Canonical mantissa exponent)
    (hreach : Reach mantissa exponent (num / den)) :
    round negative num den = finite negative mantissa exponent := by
  have hunit : (0 : ℚ) < 2 ^ exponent := by positivity
  have hnum : num ≠ 0 := by
    rintro rfl
    have hzero := hreach.pos h.pos
    simp at hzero
  by_cases hfull : exponent = -1074 ∨ 2 ^ 52 * 2 ^ exponent ≤ (num / den : ℚ)
  · exact round_of_full negative hnum hden h hreach hfull
  · rw [not_or, not_le] at hfull
    obtain ⟨hexponent, hunder⟩ := hfull
    obtain rfl : mantissa = Nat.pow 2 52 := by
      -- A greater mantissa of 53 bits leaves no room below the power of two.
      refine le_antisymm ?_ (h.full.resolve_left hexponent)
      have hhalf := lt_of_mul_lt_mul_right (hreach.le.1.trans_lt hunder) hunit.le
      have hcast : (mantissa : ℚ) < (2 ^ 52 + 1 : Nat) := by
        push_cast
        linarith
      have hlt : mantissa < 2 ^ 52 + 1 := by exact_mod_cast hcast
      exact Nat.le_of_lt_succ hlt
    exact round_of_carried negative hnum hden (lt_of_le_of_ne h.least (Ne.symm hexponent)) h.most
      hreach hunder

/-- A number that is not zero is the rounded one of what is within its reach only. -/
theorem reach_of_round {sign : Bool} (hden : 0 < den) (hmantissa : mantissa ≠ 0)
    (h : round sign num den = finite negative mantissa exponent) :
    sign = negative ∧ Canonical mantissa exponent ∧ Reach mantissa exponent (num / den) := by
  have hnum : num ≠ 0 := by
    rintro rfl
    rw [round, if_pos rfl, zero, finite.injEq] at h
    exact hmantissa h.2.1.symm
  obtain ⟨hleast, hbelow, hfull⟩ := (lowestBit_eq_iff hnum hden).1 rfl
  have hnear : NearWhole (mantissaAt num den (lowestBit num den))
      (num / den / 2 ^ lowestBit num den) := (mantissaAt_eq_iff hden).1 rfl
  have hsome : mantissaAt num den (lowestBit num den) ≠ 0 := by
    intro hzero
    have hround : round sign num den = zero sign := by
      rw [round, if_neg hnum]
      exact if_pos hzero
    rw [hround, zero, finite.injEq] at h
    exact hmantissa h.2.1.symm
  rw [round_eq hnum hsome] at h
  unfold carry at h
  generalize mantissaAt num den (lowestBit num den) = found at h hnear hsome
  generalize lowestBit num den = lowest at *
  have hunit : (0 : ℚ) < 2 ^ lowest := by positivity
  by_cases hgrown : found = Nat.pow 2 53
  · subst hgrown
    rw [if_pos rfl] at h
    dsimp only at h
    split_ifs at h with hlimit
    rw [finite.injEq] at h
    obtain ⟨rfl, rfl, rfl⟩ := h
    refine ⟨rfl, ⟨by decide, by decide, .inr (by decide), by omega, by omega⟩, ?_⟩
    rw [reach_iff_nearWhole_carried (by omega), add_sub_cancel_right]
    · exact hnear
    · rw [zpow_add_one₀ two_ne_zero]
      linarith
  · rw [if_neg hgrown] at h
    dsimp only at h
    split_ifs at h with hlimit
    rw [finite.injEq] at h
    obtain ⟨rfl, rfl, rfl⟩ := h
    have hbits : found ≤ 2 ^ 53 :=
      hnear.ge_of_ge (by push_cast; exact ((div_lt_iff₀ hunit).2 hbelow).le)
    have hnormal : lowest = -1074 ∨ 2 ^ 52 ≤ found :=
      hfull.imp_right fun hle => hnear.le_of_le (by push_cast; exact (le_div_iff₀ hunit).2 hle)
    exact ⟨rfl, ⟨Nat.pos_of_ne_zero hsome, lt_of_le_of_ne hbits hgrown, hnormal, hleast, by omega⟩,
      (reach_iff_nearWhole hfull).2 hnear⟩

end Double

end SqlFragments.Number
