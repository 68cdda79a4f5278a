import Mathlib
import SqlFragments.Proofs.Number.Notation

/-!
# Shortest texts

A decimal text is read as the double precision number that its value rounds to. The text of a
number is read as the number itself, and every other text that is has at least as many significant
digits.
-/

namespace SqlFragments.Number

open Text

/-! ## Significant digits -/

namespace Decimal

def significant : Decimal → Nat
  | finite _ coefficient exponent => (decimalDigits (normalized coefficient exponent).1).length
  | _ => 0

private theorem withoutTrailingZeros_value (fuel digits : Nat) (exponent : Int) :
    ((withoutTrailingZeros fuel digits exponent).1 : ℚ) *
      10 ^ (withoutTrailingZeros fuel digits exponent).2 = digits * 10 ^ exponent := by
  induction fuel generalizing digits exponent with
  | zero => rfl
  | succ fuel ih =>
    rw [withoutTrailingZeros]
    split
    · next h =>
      obtain ⟨k, rfl⟩ := Nat.dvd_of_mod_eq_zero h.2
      rw [ih, Nat.mul_div_cancel_left k (by decide), zpow_add_one₀ (by norm_num)]
      push_cast
      ring
    · rfl

theorem normalized_value (coefficient : Nat) (exponent : Int) :
    ((normalized coefficient exponent).1 : ℚ) * 10 ^ (normalized coefficient exponent).2 =
      coefficient * 10 ^ exponent := by
  rw [normalized]
  split
  · next hzero => simp [hzero]
  · exact withoutTrailingZeros_value _ coefficient exponent

private theorem withoutTrailingZeros_mul_pow {digits : Nat} (hlast : digits % 10 ≠ 0)
    {zeros fuel : Nat} (hfuel : zeros ≤ fuel) (exponent : Int) :
    withoutTrailingZeros fuel (digits * 10 ^ zeros) exponent = (digits, exponent + zeros) := by
  induction zeros generalizing fuel exponent with
  | zero => simpa using withoutTrailingZeros_of_mod_ne hlast fuel exponent
  | succ zeros ih =>
    obtain ⟨fuel, rfl⟩ := Nat.exists_eq_add_of_le' (Nat.one_le_of_lt hfuel)
    have hne : digits * 10 ^ (zeros + 1) ≠ 0 := by
      refine Nat.mul_ne_zero ?_ (Nat.pow_pos (by decide)).ne'
      rintro rfl
      exact hlast rfl
    have hdiv : digits * 10 ^ (zeros + 1) = digits * 10 ^ zeros * 10 := by rw [pow_succ, mul_assoc]
    rw [withoutTrailingZeros, if_pos ⟨hne, by rw [hdiv, Nat.mul_mod_left]⟩, hdiv,
      Nat.mul_div_cancel _ (by decide), ih (Nat.le_of_succ_le_succ hfuel)]
    push_cast
    rw [add_assoc, add_comm 1]

theorem mul_pow_zeros (digits zeros : Nat) (exponent : Int) :
    ((digits * 10 ^ zeros : Nat) : ℚ) * 10 ^ (exponent - zeros) = digits * 10 ^ exponent := by
  have hten : (10 : ℚ) ^ zeros ≠ 0 := by positivity
  rw [zpow_sub₀ (by norm_num), zpow_natCast]
  push_cast
  rw [mul_assoc, mul_div_cancel₀ _ hten]

theorem significant_mul_pow {digits : Nat} (hlast : digits % 10 ≠ 0) (negative : Bool) (zeros : Nat)
    (exponent : Int) : (finite negative (digits * 10 ^ zeros) exponent).significant =
      (decimalDigits digits).length := by
  have hpos : 0 < digits := by
    rw [Nat.pos_iff_ne_zero]
    rintro rfl
    exact hlast rfl
  have hne : digits * 10 ^ zeros ≠ 0 := (Nat.mul_pos hpos (Nat.pow_pos (by decide))).ne'
  have hroom : zeros ≤ (decimalDigits (digits * 10 ^ zeros)).length := by
    by_contra hlt
    rw [not_le] at hlt
    have hless := (lt_pow_length_decimalDigits (digits * 10 ^ zeros)).trans_le
      (Nat.pow_le_pow_right (by decide) hlt.le)
    exact absurd (Nat.le_mul_of_pos_left (10 ^ zeros) hpos) (Nat.not_le.2 hless)
  rw [significant, normalized, if_neg hne, withoutTrailingZeros_mul_pow hlast hroom]

end Decimal

namespace Double

/-! ## Reading decimals -/

private theorem two_zpow_le_ten_zpow {k : Int} (hk : 0 ≤ k) : (2 : ℚ) ^ (3 * k) ≤ 10 ^ k := by
  rw [zpow_mul]
  exact zpow_le_zpow_left₀ hk (by norm_num) (by norm_num)

private theorem ten_zpow_le_two_zpow {k : Int} (hk : k ≤ 0) : (10 : ℚ) ^ k ≤ 2 ^ (3 * k) := by
  have hinv := two_zpow_le_ten_zpow (neg_nonneg.2 hk)
  rw [mul_neg, zpow_neg, zpow_neg] at hinv
  exact (inv_le_inv₀ (by positivity) (by positivity)).1 hinv

variable {mantissa coefficient : Nat} {exponent place : Int}

theorem ne_zero_of_reach (h : Canonical mantissa exponent)
    (hreach : Reach mantissa exponent (coefficient * 10 ^ place)) : coefficient ≠ 0 := by
  rintro rfl
  have hpos := hreach.pos h.pos
  simp at hpos

private theorem least_le_leading (h : Canonical mantissa exponent)
    (hreach : Reach mantissa exponent (coefficient * 10 ^ place)) :
    -farthestExponent ≤ place + (decimalDigits coefficient).length := by
  by_contra hsmall
  unfold farthestExponent at hsmall
  have hunit : (0 : ℚ) < 10 ^ place := by positivity
  have hbelow : (coefficient : ℚ) * 10 ^ place < 2 ^ (-1075 : Int) := by
    calc (coefficient : ℚ) * 10 ^ place
        < 10 ^ (decimalDigits coefficient).length * 10 ^ place := by
          apply mul_lt_mul_of_pos_right _ hunit
          exact_mod_cast lt_pow_length_decimalDigits coefficient
      _ = 10 ^ (place + (decimalDigits coefficient).length) := by
          rw [zpow_add₀ (by norm_num), zpow_natCast, mul_comm]
      _ ≤ 2 ^ (3 * (place + (decimalDigits coefficient).length)) :=
          ten_zpow_le_two_zpow (by omega)
      _ ≤ 2 ^ (-1075 : Int) := zpow_le_zpow_right₀ (by norm_num) (by omega)
  have habove : (2 : ℚ) ^ (-1075 : Int) ≤ coefficient * 10 ^ place := by
    have hhalf : (2 : ℚ) ^ (-1075 : Int) = 1 / 2 * 2 ^ (-1074 : Int) := by
      rw [show (-1075 : Int) = -1074 - 1 from rfl, zpow_sub_one₀ two_ne_zero]
      ring
    have hone : (1 : ℚ) ≤ mantissa := by exact_mod_cast h.pos
    calc (2 : ℚ) ^ (-1075 : Int) = 1 / 2 * 2 ^ (-1074 : Int) := hhalf
      _ ≤ (mantissa - 1 / 2) * 2 ^ exponent := by
          apply mul_le_mul (by linarith) _ (by positivity) (by linarith)
          exact zpow_le_zpow_right₀ (by norm_num) h.least
      _ ≤ coefficient * 10 ^ place := hreach.le.1
  exact hbelow.not_ge habove

private theorem leading_le_most (h : Canonical mantissa exponent)
    (hreach : Reach mantissa exponent (coefficient * 10 ^ place)) :
    place + (decimalDigits coefficient).length ≤ farthestExponent := by
  by_contra hlarge
  unfold farthestExponent at hlarge
  have hunit : (0 : ℚ) < 10 ^ place := by positivity
  have hlength : 0 < (decimalDigits coefficient).length :=
    List.length_pos_of_ne_nil (decimalDigits_ne_nil coefficient)
  have hmost := h.most
  have hbelow : (coefficient : ℚ) * 10 ^ place < 2 ^ (1024 : Int) := by
    calc (coefficient : ℚ) * 10 ^ place ≤ (mantissa + 1 / 2) * 2 ^ exponent := hreach.le.2
      _ < 2 ^ 53 * 2 ^ exponent :=
          mul_lt_mul_of_pos_right (by linarith [h.cast_le]) (by positivity)
      _ = 2 ^ (53 + exponent) := by rw [zpow_add₀ two_ne_zero]; rfl
      _ ≤ 2 ^ (1024 : Int) := zpow_le_zpow_right₀ (by norm_num) (by omega)
  have habove : (2 : ℚ) ^ (1024 : Int) ≤ coefficient * 10 ^ place := by
    calc (2 : ℚ) ^ (1024 : Int)
        ≤ 2 ^ (3 * (place + (decimalDigits coefficient).length - 1)) :=
          zpow_le_zpow_right₀ (by norm_num) (by omega)
      _ ≤ 10 ^ (place + (decimalDigits coefficient).length - 1) := two_zpow_le_ten_zpow (by omega)
      _ = (10 ^ ((decimalDigits coefficient).length - 1) : Nat) * 10 ^ place := by
          push_cast
          rw [← zpow_natCast, ← zpow_add₀ (by norm_num)]
          congr 1
          omega
      _ ≤ coefficient * 10 ^ place := by
          apply mul_le_mul_of_nonneg_right _ hunit.le
          exact_mod_cast pow_length_decimalDigits_le (ne_zero_of_reach h hreach)
  exact hbelow.not_ge habove

private theorem ofDecimal_eq_round (negative : Bool) (hne : coefficient ≠ 0)
    (hleast : -farthestExponent ≤ place + (decimalDigits coefficient).length)
    (hmost : place + (decimalDigits coefficient).length ≤ farthestExponent) :
    ∃ num den : Nat, 0 < den ∧ (num / den : ℚ) = coefficient * 10 ^ place ∧
      ofDecimal (.finite negative coefficient place) = round negative num den := by
  rw [ofDecimal, if_neg (not_or.2 ⟨hne, not_lt.2 hleast⟩), if_neg (not_lt.2 hmost)]
  split
  · next hplace =>
    refine ⟨_, 1, one_pos, ?_, rfl⟩
    rw [Nat.cast_mul, cast_pow_toNat 10 hplace, Nat.cast_one, div_one, Nat.cast_ofNat]
  · next hplace =>
    refine ⟨coefficient, Nat.pow 10 (-place).toNat, Nat.pow_pos (by decide), ?_, rfl⟩
    rw [cast_pow_toNat_neg 10 hplace, div_inv_eq_mul, Nat.cast_ofNat]

theorem ofDecimal_of_reach (negative : Bool) (h : Canonical mantissa exponent)
    (hreach : Reach mantissa exponent (coefficient * 10 ^ place)) :
    ofDecimal (.finite negative coefficient place) = finite negative mantissa exponent := by
  obtain ⟨num, den, hden, hvalue, hround⟩ := ofDecimal_eq_round negative
    (ne_zero_of_reach h hreach) (least_le_leading h hreach) (leading_le_most h hreach)
  rw [hround]
  exact round_of_reach negative hden h (hvalue ▸ hreach)

theorem reach_of_ofDecimal {sign negative : Bool} (hmantissa : mantissa ≠ 0)
    (h : ofDecimal (.finite sign coefficient place) = finite negative mantissa exponent) :
    sign = negative ∧ Canonical mantissa exponent ∧
      Reach mantissa exponent (coefficient * 10 ^ place) := by
  by_cases hne : coefficient = 0
  · rw [ofDecimal, if_pos (.inl hne), zero, finite.injEq] at h
    exact absurd h.2.1.symm hmantissa
  by_cases hleast : -farthestExponent ≤ place + (decimalDigits coefficient).length
  · by_cases hmost : place + (decimalDigits coefficient).length ≤ farthestExponent
    · obtain ⟨num, den, hden, hvalue, hround⟩ := ofDecimal_eq_round sign hne hleast hmost
      rw [hround] at h
      obtain ⟨hsign, hcanonical, hreach⟩ := reach_of_round hden hmantissa h
      exact ⟨hsign, hcanonical, hvalue ▸ hreach⟩
    · rw [ofDecimal, if_neg (not_or.2 ⟨hne, not_lt.2 hleast⟩), if_pos (not_le.1 hmost)] at h
      cases h
  · rw [ofDecimal, if_pos (.inr (not_le.1 hleast)), zero, finite.injEq] at h
    exact absurd h.2.1.symm hmantissa

/-! ## Reading texts -/

private theorem gapsFit_of_not_mem {cs : List Char} (h : '_' ∉ cs) : gapsFit cs = true := by
  induction cs using gapsFit.induct with
  | case1 => rfl
  | case2 rest => simp at h
  | case3 c d rest ih => simp at h
  | case4 c => simp at h
  | case5 c rest hgap hpair hlast ih =>
    rw [gapsFit]
    · exact ih fun hmem => h (List.mem_cons_of_mem _ hmem)
    all_goals assumption

theorem parse?_eq_of_finite {s : String} {negative : Bool}
    (hread : Decimal.read? s = some (.finite negative coefficient place))
    (hgaps : gapsFit (trim s.toList) = true) :
    parse? s = some (ofDecimal (.finite negative coefficient place)) := by
  rw [parse?, if_pos hgaps, hread]
  rfl

theorem exists_read?_of_parse? {s : String} {negative : Bool}
    (h : parse? s = some (finite negative mantissa exponent)) :
    ∃ sign coefficient place, Decimal.read? s = some (.finite sign coefficient place) ∧
      ofDecimal (.finite sign coefficient place) = finite negative mantissa exponent := by
  rw [parse?, Option.ite_none_right_eq_some] at h
  obtain ⟨-, h⟩ := h
  cases hread : Decimal.read? s with
  | none =>
    rw [hread] at h
    cases h
  | some d =>
    rw [hread] at h
    cases d with
    | finite sign coefficient place => exact ⟨sign, coefficient, place, rfl, Option.some.inj h⟩
    | infinite sign => cases Option.some.inj h
    | nan sign signaling payload =>
      dsimp only at h
      split at h
      · cases h
      · cases h

def IsCanonical (x : Double) : Prop :=
  ∀ negative mantissa exponent, x = finite negative mantissa exponent → mantissa ≠ 0 →
    Canonical mantissa exponent

/-! ## The shortest text -/

theorem parse?_text (h : Canonical mantissa exponent) (negative : Bool) :
    parse? (finite negative mantissa exponent).text = some (finite negative mantissa exponent) := by
  obtain ⟨zeros, hread⟩ := read?_text negative mantissa exponent
  have hreach := (shortest_shortest h.pos exponent).reach
  have hnumeric := numeric_write {} (shortest mantissa exponent).1 (shortest mantissa exponent).2
  have hgaps : gapsFit (trim (finite negative mantissa exponent).text.toList) = true := by
    rw [text, String.toList_ofList, Decimal.trim_signed hnumeric]
    exact gapsFit_of_not_mem (Decimal.underscore_not_mem_signed hnumeric negative)
  rw [parse?_eq_of_finite hread hgaps, ofDecimal_of_reach negative h]
  rwa [Decimal.mul_pow_zeros]

/-- What the text of a number is read as: the shortest decimal that is read as the number, and of
the shortest ones the nearest. -/
structure IsShortest (x : Double) (d : Decimal) : Prop where
  text : Decimal.read? x.text = some d
  reads : parse? x.text = some x
  least : ∀ s d', parse? s = some x → Decimal.read? s = some d' → d.significant ≤ d'.significant
  nearest : ∀ s d', parse? s = some x → Decimal.read? s = some d' →
    d'.significant ≤ d.significant → ∀ q value other, x.toRat? = some q → d.toRat? = some value →
      d'.toRat? = some other → |value - q| ≤ |other - q|

theorem abs_signed_sub_signed (negative : Bool) (a b : ℚ) :
    |signed negative a - signed negative b| = |a - b| := by
  cases negative with
  | true => rw [signed, signed, if_pos rfl, if_pos rfl, neg_sub_neg, abs_sub_comm]
  | false => rfl

private theorem exists_reach_of_parse? (h : Canonical mantissa exponent) {negative : Bool}
    {s : String} {d : Decimal} (hs : parse? s = some (finite negative mantissa exponent))
    (hd : Decimal.read? s = some d) : ∃ coefficient place,
      d = .finite negative coefficient place ∧
        Reach mantissa exponent (coefficient * 10 ^ place) := by
  obtain ⟨sign, coefficient, place, hread, hround⟩ := exists_read?_of_parse? hs
  obtain ⟨rfl, -, hreach⟩ := reach_of_ofDecimal h.pos.ne' hround
  rw [hd, Option.some.injEq] at hread
  exact ⟨coefficient, place, hread, hreach⟩

/-- The text of a number is its shortest one, with the digits that the search found. -/
theorem exists_isShortest (h : Canonical mantissa exponent) (negative : Bool) :
    ∃ d, IsShortest (finite negative mantissa exponent) d ∧ d.toRat? = some (signed negative
      ((shortest mantissa exponent).1 * 10 ^ (shortest mantissa exponent).2)) := by
  obtain ⟨zeros, hread⟩ := read?_text negative mantissa exponent
  have hshortest := shortest_shortest h.pos exponent
  refine ⟨_, ⟨hread, parse?_text h negative, fun s d hs hd => ?_,
    fun s d hs hd hlength q value other hq hvalue hother => ?_⟩, ?_⟩
  · obtain ⟨coefficient, place, rfl, hreach⟩ := exists_reach_of_parse? h hs hd
    rw [Decimal.significant_mul_pow hshortest.last]
    apply hshortest.length_le
    rwa [Decimal.normalized_value]
  · obtain ⟨coefficient, place, rfl, hreach⟩ := exists_reach_of_parse? h hs hd
    rw [Decimal.significant_mul_pow hshortest.last] at hlength
    rw [← Decimal.normalized_value] at hreach
    rw [toRat?_finite, Option.some.injEq] at hq
    rw [Decimal.toRat?_finite, Option.some.injEq] at hvalue hother
    rw [← hq, ← hvalue, ← hother, abs_signed_sub_signed, abs_signed_sub_signed,
      Decimal.mul_pow_zeros, ← Decimal.normalized_value coefficient place]
    exact hshortest.nearest _ _ hreach hlength
  · rw [Decimal.toRat?_finite, Decimal.mul_pow_zeros]

end Double

end SqlFragments.Number
