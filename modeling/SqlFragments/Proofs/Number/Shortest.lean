import Mathlib
import SqlFragments.Proofs.Number.Nearest
import SqlFragments.Proofs.Text.Numeral

/-!
# The shortest digits of a number

The search for digits goes from coarse grids of decimals to fine ones and stops at the first grid
with a point that rounds to the number. Since the points of a coarse grid belong to all finer ones,
no number with fewer digits rounds to it.
-/

namespace SqlFragments.Number

open Text

theorem Decimal.withoutTrailingZeros_of_mod_ne {digits : Nat} (h : digits % 10 ≠ 0) (fuel : Nat)
    (exponent : Int) : withoutTrailingZeros fuel digits exponent = (digits, exponent) := by
  cases fuel with
  | zero => rfl
  | succ fuel => rw [withoutTrailingZeros, if_neg fun hzero => h hzero.2]

namespace Double

/-! ## The search -/

section Search

variable {value low high : Nat} {closed : Bool}

private theorem tested_iff (n : Nat) :
    (if closed then decide (low ≤ n) && decide (n ≤ high)
      else decide (low < n) && decide (n < high)) = true ↔ Within closed low high n := by
  cases closed <;> simp [Within]

private theorem neighbours (value : Nat) {unit : Nat} (hunit : 0 < unit) :
    ((value / unit * unit : Nat) : ℚ) ≤ value ∧
      (value : ℚ) ≤ ((value / unit + 1) * unit : Nat) := by
  have hbelow := Nat.div_mul_le_self value unit
  have habove := (Nat.lt_mul_of_div_lt (Nat.lt_succ_self (value / unit)) hunit).le
  exact ⟨by exact_mod_cast hbelow, by exact_mod_cast habove⟩

private theorem neighbour_of_within {unit k : Nat} (hunit : 0 < unit)
    (hvalue : Within closed low high value) (hk : Within closed low high (k * unit : Nat)) :
    (Within closed low high (value / unit * unit : Nat) ∧
      |((value / unit * unit : Nat) : ℚ) - value| ≤ |((k * unit : Nat) : ℚ) - value|) ∨
    (Within closed low high ((value / unit + 1) * unit : Nat) ∧
      |(((value / unit + 1) * unit : Nat) : ℚ) - value| ≤ |((k * unit : Nat) : ℚ) - value|) := by
  obtain ⟨hbelow, habove⟩ := neighbours value hunit
  rcases Nat.lt_or_ge (value / unit) k with hlt | hge
  · have hfar : (((value / unit + 1) * unit : Nat) : ℚ) ≤ (k * unit : Nat) := by
      exact_mod_cast Nat.mul_le_mul_right unit hlt
    refine .inr ⟨hvalue.between hk habove hfar, ?_⟩
    rw [abs_of_nonneg (by linarith), abs_of_nonneg (by linarith)]
    linarith
  · have hfar : ((k * unit : Nat) : ℚ) ≤ (value / unit * unit : Nat) := by
      exact_mod_cast Nat.mul_le_mul_right unit hge
    refine .inl ⟨hk.between hvalue hfar hbelow, ?_⟩
    rw [abs_of_nonpos (by linarith), abs_of_nonpos (by linarith)]
    linarith

/-- What a search from the grid of `10 ^ top` on is for: a point within the bounds, next to the
number, on the coarsest grid that has one, and no farther than the other points of that grid. -/
structure Found (value low high : Nat) (closed : Bool) (top : Nat) (point : Nat × Nat) : Prop where
  place : point.2 ≤ top
  fits : Within closed low high (point.1 * 10 ^ point.2 : Nat)
  near : point.1 ≤ value / 10 ^ point.2 + 1
  coarsest : ∀ place, point.2 < place → place ≤ top → ∀ k : Nat,
    ¬ Within closed low high (k * 10 ^ place : Nat)
  nearest : ∀ k : Nat, Within closed low high (k * 10 ^ point.2 : Nat) →
    |((point.1 * 10 ^ point.2 : Nat) : ℚ) - value| ≤ |((k * 10 ^ point.2 : Nat) : ℚ) - value|

theorem found_search (hvalue : Within closed low high value) (top : Nat) :
    Found value low high closed top (search value low high closed top) := by
  induction top with
  | zero =>
    refine ⟨le_rfl, ?_, by simp [search], fun place hlt hle => by simp [search] at hlt hle; omega,
      fun k hk => by simp [search]⟩
    simpa [search] using hvalue
  | succ top ih =>
    have hunit : 0 < 10 ^ (top + 1) := Nat.pow_pos (by decide)
    unfold search
    extract_lets unit floor rest fits
    have hfits : ∀ p, fits p = true ↔ Within closed low high (p * 10 ^ (top + 1) : Nat) :=
      fun p => tested_iff (p * unit)
    have hdivision : floor * 10 ^ (top + 1) + rest = value := Nat.div_add_mod' value unit
    -- How far the two neighbours are from the number.
    have hfloor : |((floor * 10 ^ (top + 1) : Nat) : ℚ) - value| = rest := by
      rw [← hdivision, Nat.cast_add, sub_add_cancel_left, abs_neg, Nat.abs_cast]
    have hceil : |(((floor + 1) * 10 ^ (top + 1) : Nat) : ℚ) - value| = unit - rest := by
      have hrest : (rest : ℚ) ≤ unit := by exact_mod_cast (Nat.mod_lt value hunit).le
      have hdifference : (((floor + 1) * 10 ^ (top + 1) : Nat) : ℚ) - value = unit - rest := by
        have hpower : (unit : ℚ) = 10 ^ (top + 1) := Nat.cast_pow 10 (top + 1)
        rw [← hdivision, Nat.succ_mul, hpower]
        push_cast
        ring
      rw [hdifference, abs_of_nonneg (by linarith)]
    have hnothing : ∀ place, top + 1 < place → place ≤ top + 1 →
        ∀ k : Nat, ¬ Within closed low high (k * 10 ^ place : Nat) :=
      fun place hlt hle => absurd hle (Nat.not_le.2 hlt)
    split_ifs with hexact hbelow habove
    · have hvalue' : floor * 10 ^ (top + 1) = value := by omega
      refine ⟨le_rfl, by rwa [hvalue'], Nat.le_succ floor, hnothing, fun k _ => ?_⟩
      rw [hfloor, hexact, Nat.cast_zero]
      exact abs_nonneg _
    · refine ⟨le_rfl, (hfits floor).1 hbelow.1, Nat.le_succ floor, hnothing, fun k hk => ?_⟩
      rcases neighbour_of_within hunit hvalue hk with ⟨-, hle⟩ | ⟨hnext, hle⟩
      · exact hle
      · refine le_trans ?_ hle
        have hhalf : 2 * rest ≤ unit := by
          rcases hbelow.2 with hlt | ⟨heq, -⟩ | hnone
          · exact hlt.le
          · exact heq.le
          · exact absurd ((hfits (floor + 1)).2 hnext) hnone
        have hcast : (2 * rest : ℚ) ≤ unit := by exact_mod_cast hhalf
        rw [hfloor]
        refine le_trans ?_ hceil.ge
        linarith
    · refine ⟨le_rfl, (hfits (floor + 1)).1 habove, le_rfl, hnothing, fun k hk => ?_⟩
      rcases neighbour_of_within hunit hvalue hk with ⟨hprevious, hle⟩ | ⟨-, hle⟩
      · refine le_trans ?_ hle
        have hhalf : unit ≤ 2 * rest := by
          by_contra hlt
          exact hbelow ⟨(hfits floor).2 hprevious, .inl (not_le.1 hlt)⟩
        have hcast : (unit : ℚ) ≤ 2 * rest := by exact_mod_cast hhalf
        rw [hceil]
        refine le_trans ?_ hfloor.ge
        linarith
      · exact hle
    · refine ⟨ih.place.trans (Nat.le_succ top), ih.fits, ih.near, fun place hlt hle => ?_,
        ih.nearest⟩
      rcases hle.lt_or_eq with hle | rfl
      · exact ih.coarsest place hlt (Nat.lt_succ_iff.1 hle)
      · intro k hk
        rcases neighbour_of_within hunit hvalue hk with ⟨hprevious, -⟩ | ⟨hnext, -⟩
        · exact hbelow ⟨(hfits floor).2 hprevious, .inr (.inr habove)⟩
        · exact habove ((hfits (floor + 1)).2 hnext)

end Search

/-! ## Scaling -/

def scale (exponent : Int) : Nat :=
  if 0 ≤ exponent then Nat.pow 2 exponent.toNat else Nat.pow 5 (-exponent).toNat

def shift (exponent : Int) : Int := if 0 ≤ exponent then -2 else exponent - 2

theorem scale_mul_pow (exponent : Int) :
    (scale exponent : ℚ) * 10 ^ shift exponent * 100 = 2 ^ exponent := by
  have hhundred : ∀ e : Int, (10 : ℚ) ^ (e - 2) * 100 = 10 ^ e := by
    intro e
    rw [zpow_sub₀ (by norm_num)]
    norm_num
  unfold scale shift
  split
  · next he =>
    have hunit := hhundred 0
    rw [zero_sub, zpow_zero] at hunit
    rw [cast_pow_toNat 2 he, mul_assoc, hunit, mul_one, Nat.cast_ofNat]
  · next he =>
    have hten : (10 : ℚ) ^ exponent = 5 ^ exponent * 2 ^ exponent := by
      rw [← mul_zpow]
      norm_num
    have hfive : (5 : ℚ) ^ exponent ≠ 0 := by positivity
    rw [cast_pow_toNat_neg 5 he, mul_assoc, hhundred, hten, Nat.cast_ofNat,
      inv_mul_cancel_left₀ hfive]

variable {mantissa : Nat} {exponent : Int}

theorem reach_scaled_iff (hpos : 0 < mantissa) (n : Nat) :
    Reach mantissa exponent (n * 10 ^ shift exponent) ↔
      Within (mantissa % 2 = 0)
        (25 * (4 * mantissa - lowGap mantissa exponent) * scale exponent : Nat)
        (25 * (4 * mantissa + 2) * scale exponent : Nat) n := by
  have hunit : (0 : ℚ) < 10 ^ shift exponent := by positivity
  have hgap : lowGap mantissa exponent ≤ 4 * mantissa := by
    have hle := lowGap_le mantissa exponent
    have hcast : lowGap mantissa exponent ≤ 2 := by exact_mod_cast hle
    omega
  rw [← Within.mul_iff hunit, Reach]
  push_cast [Nat.cast_sub hgap]
  rw [← scale_mul_pow exponent]
  ring_nf

private theorem reach_grid_iff (hpos : 0 < mantissa) (k place : Nat) :
    Reach mantissa exponent (k * 10 ^ (shift exponent + place)) ↔
      Within (mantissa % 2 = 0)
        (25 * (4 * mantissa - lowGap mantissa exponent) * scale exponent : Nat)
        (25 * (4 * mantissa + 2) * scale exponent : Nat) (k * 10 ^ place : Nat) := by
  rw [← reach_scaled_iff hpos, zpow_add₀ (by norm_num), zpow_natCast, mul_left_comm,
    mul_comm (10 ^ shift exponent)]
  push_cast
  rfl

def scaled (mantissa : Nat) (exponent : Int) : Nat := 100 * mantissa * scale exponent

theorem scaled_mul_pow (mantissa : Nat) (exponent : Int) :
    (scaled mantissa exponent : ℚ) * 10 ^ shift exponent = mantissa * 2 ^ exponent := by
  rw [← scale_mul_pow, scaled]
  push_cast
  ring

private theorem abs_grid_sub (mantissa : Nat) (exponent : Int) (k place : Nat) :
    |(k : ℚ) * 10 ^ (shift exponent + place) - mantissa * 2 ^ exponent| =
      |((k * 10 ^ place : Nat) : ℚ) - scaled mantissa exponent| * 10 ^ shift exponent := by
  have hunit : (0 : ℚ) < 10 ^ shift exponent := by positivity
  have hfactor : (k : ℚ) * 10 ^ (shift exponent + place) - mantissa * 2 ^ exponent =
      (((k * 10 ^ place : Nat) : ℚ) - scaled mantissa exponent) * 10 ^ shift exponent := by
    rw [sub_mul, scaled_mul_pow, zpow_add₀ (by norm_num), zpow_natCast]
    push_cast
    ring
  rw [hfactor, abs_mul, abs_of_pos hunit]

/-- The digits of a number round to it and end without a zero. Where there are several of them,
nothing on the grid of decimals with one digit less rounds to the number, and no number with as few
digits that does is nearer. -/
structure Shortest (mantissa : Nat) (exponent : Int) (digits : Nat) (place : Int) : Prop where
  reach : Reach mantissa exponent (digits * 10 ^ place)
  last : digits % 10 ≠ 0
  coarser : 10 ≤ digits → ∀ k : Nat, ¬ Reach mantissa exponent (k * 10 ^ (place + 1))
  nearest : ∀ (others : Nat) (e : Int), Reach mantissa exponent (others * 10 ^ e) →
    (decimalDigits others).length ≤ (decimalDigits digits).length →
    |(digits : ℚ) * 10 ^ place - mantissa * 2 ^ exponent| ≤
      |(others : ℚ) * 10 ^ e - mantissa * 2 ^ exponent|

theorem shortest_eq (hpos : 0 < mantissa) (exponent : Int) :
    shortest mantissa exponent =
      let value := scaled mantissa exponent
      let point := search value (25 * (4 * mantissa - lowGap mantissa exponent) * scale exponent)
        (25 * (4 * mantissa + 2) * scale exponent) (mantissa % 2 = 0)
        ((decimalDigits value).length - 1)
      Decimal.withoutTrailingZeros (decimalDigits value).length point.1
        (shift exponent + point.2) := by
  rw [shortest, if_neg hpos.ne']
  rfl

private theorem nearest_of_found (hpos : 0 < mantissa) {top : Nat} {point : Nat × Nat}
    (hfound : Found (scaled mantissa exponent)
      (25 * (4 * mantissa - lowGap mantissa exponent) * scale exponent)
      (25 * (4 * mantissa + 2) * scale exponent) (mantissa % 2 = 0) top point)
    (hroom : scaled mantissa exponent / 10 ^ point.2 ≠ 0) {others : Nat} {e : Int}
    (hreach : Reach mantissa exponent (others * 10 ^ e))
    (hlength : (decimalDigits others).length ≤
      (decimalDigits (scaled mantissa exponent / 10 ^ point.2)).length) :
    |(point.1 : ℚ) * 10 ^ (shift exponent + point.2) - mantissa * 2 ^ exponent| ≤
      |(others : ℚ) * 10 ^ e - mantissa * 2 ^ exponent| := by
  have hunit : (0 : ℚ) < 10 ^ shift exponent := by positivity
  have hgrid : ∀ k : Nat, Reach mantissa exponent (k * 10 ^ (shift exponent + point.2)) →
      |(point.1 : ℚ) * 10 ^ (shift exponent + point.2) - mantissa * 2 ^ exponent| ≤
        |(k : ℚ) * 10 ^ (shift exponent + point.2) - mantissa * 2 ^ exponent| := by
    intro k hk
    rw [abs_grid_sub, abs_grid_sub]
    exact mul_le_mul_of_nonneg_right (hfound.nearest k ((reach_grid_iff hpos k _).1 hk)) hunit.le
  rcases le_or_gt (shift exponent + point.2) e with hcoarse | hfine
  · obtain ⟨j, hj⟩ := Int.eq_ofNat_of_zero_le (by omega : 0 ≤ e - (shift exponent + point.2))
    obtain rfl : e = j + (shift exponent + point.2) := by omega
    have hsame : (others : ℚ) * 10 ^ (j + (shift exponent + (point.2 : Int))) =
        (others * 10 ^ j : Nat) * 10 ^ (shift exponent + (point.2 : Int)) := by
      rw [zpow_add₀ (by norm_num), zpow_natCast, ← mul_assoc]
      push_cast
      rfl
    rw [hsame] at hreach ⊢
    exact hgrid _ hreach
  · -- The other number is below the lower neighbour on the grid, which rounds to the number too.
    generalize hfloor : scaled mantissa exponent / 10 ^ point.2 = floor at *
    have hbelow : (floor : ℚ) * 10 ^ (shift exponent + point.2) ≤ mantissa * 2 ^ exponent := by
      have hle : floor * 10 ^ point.2 ≤ scaled mantissa exponent :=
        hfloor ▸ Nat.div_mul_le_self _ _
      have hcast : ((floor * 10 ^ point.2 : Nat) : ℚ) ≤ scaled mantissa exponent := by
        exact_mod_cast hle
      have hscaled := mul_le_mul_of_nonneg_right hcast hunit.le
      rw [scaled_mul_pow] at hscaled
      refine le_trans (le_of_eq ?_) hscaled
      rw [zpow_add₀ (by norm_num), zpow_natCast]
      push_cast
      ring
    have hless : (others : ℚ) * 10 ^ e ≤ floor * 10 ^ (shift exponent + point.2) := by
      obtain ⟨more, hmore⟩ : ∃ more, (decimalDigits floor).length = more + 1 :=
        Nat.exists_eq_add_of_le' (List.length_pos_of_ne_nil (decimalDigits_ne_nil floor))
      have hothers : others ≤ 10 ^ (more + 1) := ((lt_pow_length_decimalDigits others).trans_le
        (Nat.pow_le_pow_right (by decide) (hlength.trans_eq hmore))).le
      have hpower : 10 ^ more ≤ floor := by
        have hle := pow_length_decimalDigits_le hroom
        rwa [hmore, Nat.add_sub_cancel] at hle
      calc (others : ℚ) * 10 ^ e
          ≤ (10 ^ (more + 1) : Nat) * 10 ^ (shift exponent + point.2 - 1) := by
            apply mul_le_mul (by exact_mod_cast hothers) _ (by positivity) (by positivity)
            exact zpow_le_zpow_right₀ (by norm_num) (by omega)
        _ = (10 ^ more : Nat) * 10 ^ (shift exponent + point.2) := by
            rw [zpow_sub_one₀ (by norm_num), pow_succ]
            push_cast
            ring
        _ ≤ floor * 10 ^ (shift exponent + point.2) := by
            apply mul_le_mul_of_nonneg_right _ (by positivity)
            exact_mod_cast hpower
    have hself := reach_self mantissa exponent
    refine (hgrid floor (Within.between hreach hself hless hbelow)).trans ?_
    rw [abs_of_nonpos (by linarith), abs_of_nonpos (by linarith)]
    linarith

private theorem shortest_of_coarse {digits : Nat} {place : Int} (hne : digits ≠ 0)
    (hten : digits ≤ 10) (hreach : Reach mantissa exponent (digits * 10 ^ place))
    (hnearest : ∀ (others : Nat) (e : Int), Reach mantissa exponent (others * 10 ^ e) →
      (decimalDigits others).length ≤ 1 →
      |(digits : ℚ) * 10 ^ place - mantissa * 2 ^ exponent| ≤
        |(others : ℚ) * 10 ^ e - mantissa * 2 ^ exponent|) {fuel : Nat} (hfuel : 2 ≤ fuel) :
    Shortest mantissa exponent (Decimal.withoutTrailingZeros fuel digits place).1
      (Decimal.withoutTrailingZeros fuel digits place).2 := by
  rcases hten.lt_or_eq with hlt | rfl
  · have hone : (decimalDigits digits).length ≤ 1 := (length_decimalDigits_le_iff one_pos).2 hlt
    rw [Decimal.withoutTrailingZeros_of_mod_ne (by omega)]
    exact ⟨hreach, by omega, fun hmany => absurd hmany (by omega),
      fun others e hothers hlength => hnearest others e hothers (hlength.trans hone)⟩
  · obtain ⟨fuel, rfl⟩ := Nat.exists_eq_add_of_le' (Nat.one_le_of_lt hfuel)
    have hone : Decimal.withoutTrailingZeros (fuel + 1) 10 place = (1, place + 1) := by
      rw [Decimal.withoutTrailingZeros, if_pos (by decide),
        Decimal.withoutTrailingZeros_of_mod_ne (by decide)]
    have hvalue : ((1 : Nat) : ℚ) * 10 ^ (place + 1) = (10 : Nat) * 10 ^ place := by
      rw [zpow_add_one₀ (by norm_num)]
      push_cast
      ring
    rw [hone]
    refine ⟨by rwa [hvalue], one_ne_zero, fun hmany => absurd hmany (by norm_num),
      fun others e hothers hlength => ?_⟩
    rw [hvalue]
    exact hnearest others e hothers
      (hlength.trans ((length_decimalDigits_le_iff one_pos).2 (by norm_num)))

private theorem last_of_fine {digits : Nat} {place : Int}
    (hreach : Reach mantissa exponent (digits * 10 ^ place))
    (hcoarser : ∀ k : Nat, ¬ Reach mantissa exponent (k * 10 ^ (place + 1))) : digits % 10 ≠ 0 := by
  intro hzero
  obtain ⟨k, rfl⟩ := Nat.dvd_of_mod_eq_zero hzero
  apply hcoarser k
  rw [zpow_add_one₀ (by norm_num), mul_comm (_ ^ place), ← mul_assoc, mul_comm (k : ℚ)]
  simpa using hreach

theorem shortest_shortest (hpos : 0 < mantissa) (exponent : Int) :
    Shortest mantissa exponent (shortest mantissa exponent).1 (shortest mantissa exponent).2 := by
  have hscale : 0 < scale exponent := by
    unfold scale
    split <;> exact Nat.pow_pos (by decide)
  rw [shortest_eq hpos]
  extract_lets value point
  have hself : Reach mantissa exponent (value * 10 ^ shift exponent) := by
    rw [show (value : ℚ) * 10 ^ shift exponent = _ from scaled_mul_pow mantissa exponent]
    exact reach_self mantissa exponent
  have hvalue : 100 ≤ value := by
    have hone : 1 ≤ mantissa * scale exponent := Nat.mul_pos hpos hscale
    have hassoc : value = 100 * (mantissa * scale exponent) := Nat.mul_assoc ..
    omega
  have hlength : 3 ≤ (decimalDigits value).length := by
    by_contra hshort
    have hlt := (length_decimalDigits_le_iff two_pos).1 (Nat.le_of_lt_succ (not_le.1 hshort))
    omega
  have hfound : Found _ _ _ _ _ point := found_search ((reach_scaled_iff hpos value).1 hself)
    ((decimalDigits value).length - 1)
  have hpoint := (reach_grid_iff hpos point.1 point.2).2 hfound.fits
  have hroom : value / 10 ^ point.2 ≠ 0 := by
    have hle : 10 ^ point.2 ≤ value := (Nat.pow_le_pow_right (by decide) hfound.place).trans
      (pow_length_decimalDigits_le (by omega))
    exact (Nat.div_pos hle (Nat.pow_pos (by decide))).ne'
  rcases hfound.place.lt_or_eq with hfine | hcoarse
  · have hcoarser : ∀ k : Nat,
        ¬ Reach mantissa exponent (k * 10 ^ (shift exponent + point.2 + 1)) := by
      intro k
      have hnone := hfound.coarsest (point.2 + 1) (Nat.lt_succ_self _) hfine k
      rw [← reach_grid_iff hpos, Nat.cast_succ, ← add_assoc] at hnone
      exact hnone
    have hlast := last_of_fine hpoint hcoarser
    have hdigits : (decimalDigits point.1).length ≤
        (decimalDigits (value / 10 ^ point.2)).length := by
      rcases hfound.near.lt_or_eq with hlt | heq
      · exact length_decimalDigits_mono (Nat.le_of_lt_succ hlt)
      · rw [heq] at hlast ⊢
        exact length_decimalDigits_succ_le hlast
    rw [Decimal.withoutTrailingZeros_of_mod_ne hlast]
    exact ⟨hpoint, hlast, fun _ => hcoarser, fun others e hothers hlength =>
      nearest_of_found hpos hfound hroom hothers (hlength.trans hdigits)⟩
  · have hdigit : value / 10 ^ point.2 < 10 := by
      have hpower : 10 * 10 ^ ((decimalDigits value).length - 1) =
          10 ^ (decimalDigits value).length := by
        rw [← Nat.pow_succ', Nat.succ_eq_add_one, Nat.sub_add_cancel (by omega)]
      rw [Nat.div_lt_iff_lt_mul (Nat.pow_pos (by decide)), hcoarse, hpower]
      exact lt_pow_length_decimalDigits value
    have hne : point.1 ≠ 0 := by
      intro hzero
      have hnone := hpoint.pos hpos
      simp [hzero] at hnone
    refine shortest_of_coarse hne (hfound.near.trans (by omega)) hpoint
      (fun others e hothers hlength => ?_) (by omega)
    exact nearest_of_found hpos hfound hroom hothers
      (hlength.trans (List.length_pos_of_ne_nil (decimalDigits_ne_nil _)))

/-- No number with fewer digits rounds to a number than its shortest digits. -/
theorem Shortest.length_le {digits : Nat} {place : Int}
    (h : Shortest mantissa exponent digits place) {others : Nat} {e : Int}
    (hreach : Reach mantissa exponent (others * 10 ^ e)) :
    (decimalDigits digits).length ≤ (decimalDigits others).length := by
  by_contra hlt
  rw [not_le] at hlt
  have hnonempty : 0 < (decimalDigits others).length :=
    List.length_pos_of_ne_nil (decimalDigits_ne_nil others)
  obtain ⟨more, hmore⟩ : ∃ more, (decimalDigits digits).length = more + 2 :=
    ⟨(decimalDigits digits).length - 2, by omega⟩
  have hdigits : 10 ^ (more + 1) ≤ digits := by
    have hne : digits ≠ 0 := by
      rintro rfl
      exact h.last rfl
    have hpower := pow_length_decimalDigits_le hne
    rwa [hmore] at hpower
  have hothers : others < 10 ^ (more + 1) := (lt_pow_length_decimalDigits others).trans_le
    (Nat.pow_le_pow_right (by decide) (by omega))
  have hten : 10 ≤ digits :=
    le_trans (by rw [pow_succ]; exact Nat.le_mul_of_pos_left 10 (Nat.pow_pos (by decide))) hdigits
  rcases lt_or_ge place e with hcoarse | hfine
  · -- The other number is on a coarser grid itself.
    obtain ⟨k, hk⟩ := Int.eq_ofNat_of_zero_le (by omega : 0 ≤ e - (place + 1))
    obtain rfl : e = k + (place + 1) := by omega
    apply h.coarser hten (others * 10 ^ k)
    rw [zpow_add₀ (by norm_num), zpow_natCast, ← mul_assoc] at hreach
    exact_mod_cast hreach
  · -- Between the two numbers there is a power of ten.
    apply h.coarser hten (10 ^ more)
    have hpower : (10 : ℚ) ^ e ≤ 10 ^ place := zpow_le_zpow_right₀ (by norm_num) hfine
    have hunit : (0 : ℚ) < 10 ^ place := by positivity
    have hmiddle : ((10 ^ more : Nat) : ℚ) * 10 ^ (place + 1) =
        ((10 ^ (more + 1) : Nat) : ℚ) * 10 ^ place := by
      rw [zpow_add_one₀ (by norm_num), pow_succ]
      push_cast
      ring
    rw [hmiddle]
    refine Within.between hreach h.reach ?_ ?_
    · apply mul_le_mul _ hpower (by positivity) (by positivity)
      exact_mod_cast hothers.le
    · apply mul_le_mul_of_nonneg_right _ hunit.le
      exact_mod_cast hdigits

end Double

end SqlFragments.Number
