import SqlFragments.Proofs.Number.Reading

/-!
# Signs of products

A product changes its sign with a factor, and nothing else of it changes. So a number times one is
the number itself, and times minus one it is the number with the other sign.
-/

namespace SqlFragments.Number.Double

private theorem round_not (negative : Bool) (num den : Nat) :
    round (!negative) num den = (round negative num den).negate := by
  unfold round
  dsimp only
  split_ifs <;> rfl

private theorem ofRat_neg {q : ℚ} (h : q ≠ 0) : ofRat (-q) = (ofRat q).negate := by
  have hnum : q.num ≠ 0 := Rat.num_ne_zero.2 h
  have hsign : decide ((-q).num < 0) = !decide (q.num < 0) := by
    rw [← decide_not, decide_eq_decide, Rat.neg_num]
    omega
  have hsize : (-q).num.natAbs = q.num.natAbs := by rw [Rat.neg_num, Int.natAbs_neg]
  have hden : (-q).den = q.den := Rat.den_neg_eq_den q
  rw [ofRat, hsign, hsize, hden, round_not, ofRat]

private theorem rounded_mul_negate {nx ny : Bool} {mx my : Nat} {ex ey : Int} (sign : Bool) :
    rounded (· * ·) (!sign) (finite (!nx) mx ex) (finite ny my ey) =
      (rounded (· * ·) sign (finite nx mx ex) (finite ny my ey)).negate := by
  have hx : (finite (!nx) mx ex).toRat? = (finite nx mx ex).toRat?.map (-·) :=
    toRat?_negate (finite nx mx ex)
  obtain ⟨a, ha⟩ : ∃ a, (finite nx mx ex).toRat? = some a := ⟨_, rfl⟩
  obtain ⟨b, hb⟩ : ∃ b, (finite ny my ey).toRat? = some b := ⟨_, rfl⟩
  rw [rounded, rounded, hx, ha, hb]
  simp only [Option.map_some, neg_mul, neg_eq_zero]
  split_ifs with hzero
  · rfl
  · exact ofRat_neg hzero

theorem negate_mul (x y : Double) : x.negate.mul y = (x.mul y).negate := by
  have hsign : ∀ a b : Bool, ((!a) != b) = !(a != b) := by decide
  cases x with
  | nan => cases y <;> rfl
  | infinite nx =>
    cases y with
    | nan => rfl
    | infinite ny => simp [mul, negate, isNegative]
    | finite ny my ey =>
      simp only [mul, negate, isNegative]
      split_ifs <;> simp
  | finite nx mx ex =>
    cases y with
    | nan => rfl
    | infinite ny =>
      simp only [mul, negate, isNegative]
      split_ifs <;> simp
    | finite ny my ey =>
      simp only [mul, negate, isNegative, hsign]
      exact rounded_mul_negate _

/-! ## Products with one -/

theorem isCanonical_ofRat (q : ℚ) : (ofRat q).IsCanonical := fun _ _ _ h hmantissa =>
  (reach_of_round q.den_pos hmantissa h).2.1

theorem isCanonical_rounded (op : ℚ → ℚ → ℚ) (sign : Bool) (x y : Double) :
    (rounded op sign x y).IsCanonical := by
  unfold rounded
  split
  · split_ifs
    · intro _ _ _ h hmantissa
      cases h
      exact absurd rfl hmantissa
    · exact isCanonical_ofRat _
  · exact nofun

private theorem round_eq_zero {negative sign : Bool} {num den : Nat} {exponent : Int}
    (h : round negative num den = finite sign 0 exponent) : exponent = 0 := by
  unfold round at h
  split at h
  · exact (finite.inj h).2.2.symm
  · dsimp only at h
    generalize (if 0 ≤ lowestBit num den then _ else _) = mantissa at h
    split at h
    · exact (finite.inj h).2.2.symm
    · next hmantissa =>
      by_cases hcarry : mantissa = Nat.pow 2 53
      · rw [if_pos hcarry] at h
        dsimp only at h
        split_ifs at h
        exact absurd (finite.inj h).2.1 (by decide)
      · rw [if_neg hcarry] at h
        dsimp only at h
        split_ifs at h
        exact absurd (finite.inj h).2.1 hmantissa

theorem exponent_of_rounded {op : ℚ → ℚ → ℚ} {sign negative : Bool} {x y : Double}
    {exponent : Int} (h : rounded op sign x y = finite negative 0 exponent) : exponent = 0 := by
  unfold rounded at h
  split at h
  · split_ifs at h
    · injection h with hsign hkept hexponent
      exact hexponent.symm
    · exact round_eq_zero h
  · cases h

theorem ofRat_toRat {negative : Bool} {mantissa : Nat} {exponent : Int}
    (h : Canonical mantissa exponent) {q : ℚ}
    (hq : (finite negative mantissa exponent).toRat? = some q) :
    q ≠ 0 ∧ ofRat q = finite negative mantissa exponent := by
  have hpos : (0 : ℚ) < mantissa * powerOfTwo exponent :=
    mul_pos (by exact_mod_cast h.pos) (powerOfTwo_pos exponent)
  have hsize : |q| = mantissa * powerOfTwo exponent := by
    cases hq
    cases negative <;> simp [abs_of_pos hpos]
  have hden : (q.den : ℚ) ≠ 0 := by exact_mod_cast q.den_pos.ne'
  have hvalue : (q.num.natAbs / q.den : ℚ) = mantissa * 2 ^ exponent := by
    rw [← abs_mul_den, mul_div_cancel_right₀ _ hden, hsize, powerOfTwo_eq_zpow]
  have hsign : decide (q.num < 0) = negative := by
    cases hq
    cases negative with
    | false => exact decide_eq_false (not_lt.2 (Rat.num_nonneg.2 hpos.le))
    | true => exact decide_eq_true (Rat.num_neg.2 (neg_neg_of_pos hpos))
  have hreach : Reach mantissa exponent (q.num.natAbs / q.den) := by
    rw [hvalue]
    exact reach_self mantissa exponent
  refine ⟨?_, ?_⟩
  · rintro rfl
    rw [abs_zero] at hsize
    exact hpos.ne hsize
  · rw [ofRat, hsign]
    exact round_of_reach negative q.den_pos h hreach

private theorem ofNat_one : ofNat 1 = finite false (Nat.pow 2 52) (-52) := by decide +kernel

theorem one_mul_infinite (negative : Bool) :
    (ofNat 1).mul (infinite negative) = infinite negative := by
  rw [ofNat_one]
  cases negative <;> rfl

theorem one_mul_nan : (ofNat 1).mul nan = nan := by
  rw [ofNat_one]
  rfl

private theorem one_mul_finite {negative : Bool} {mantissa : Nat} {exponent : Int} {a : ℚ}
    (ha : (finite negative mantissa exponent).toRat? = some a) :
    (ofNat 1).mul (finite negative mantissa exponent) =
      if a = 0 then zero negative else ofRat a := by
  have hvalue : (finite false (Nat.pow 2 52) (-52)).toRat? = some 1 := by decide +kernel
  rw [ofNat_one]
  simp only [mul, rounded, hvalue, ha, isNegative, Bool.false_bne, Rat.one_mul]

theorem one_mul_rounded (op : ℚ → ℚ → ℚ) (sign : Bool) (x y : Double) :
    (ofNat 1).mul (rounded op sign x y) = rounded op sign x y := by
  cases hx : rounded op sign x y with
  | infinite negative => exact one_mul_infinite negative
  | nan => exact one_mul_nan
  | finite negative mantissa exponent =>
    obtain ⟨a, ha⟩ : ∃ a, (finite negative mantissa exponent).toRat? = some a := ⟨_, rfl⟩
    rw [one_mul_finite ha]
    by_cases hmantissa : mantissa = 0
    · subst hmantissa
      obtain rfl := exponent_of_rounded hx
      have hzero : a = 0 := by
        cases ha
        cases negative <;> simp
      rw [if_pos hzero, zero]
    · obtain ⟨hne, hround⟩ :=
        ofRat_toRat (isCanonical_rounded op sign x y negative mantissa exponent hx hmantissa) ha
      rw [if_neg hne, hround]

theorem one_mul_add (x y : Double) : (ofNat 1).mul (x.add y) = x.add y := by
  unfold add
  split
  · split_ifs
    · exact one_mul_infinite _
    · exact one_mul_nan
  · exact one_mul_infinite _
  · exact one_mul_infinite _
  · exact one_mul_rounded _ _ _ _

end SqlFragments.Number.Double
