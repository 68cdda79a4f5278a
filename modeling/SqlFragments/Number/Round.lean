/-!
# Rounding quotients

A quotient rounded to the nearest whole number; a half goes to the even neighbour.
-/

namespace SqlFragments.Number

/-- The whole number nearest to `num / den`; a half goes to the even neighbour. -/
def roundDiv (num den : Nat) : Nat :=
  let quotient := num / den
  let rest := num % den
  if 2 * rest < den then quotient
  else if 2 * rest > den then quotient + 1
  else quotient + quotient % 2

def nearest (q : Rat) : Int :=
  let size : Int := roundDiv q.num.natAbs q.den
  if q.num < 0 then -size else size

theorem roundDiv_near (num den : Nat) (hpos : 0 < den) :
    2 * num ≤ (2 * roundDiv num den + 1) * den ∧
      (2 * roundDiv num den) * den ≤ 2 * num + den := by
  have hsplit : den * (num / den) + num % den = num := Nat.div_add_mod num den
  have hrest : num % den < den := Nat.mod_lt _ hpos
  simp only [roundDiv]
  generalize num / den = q at *
  generalize num % den = r at *
  subst hsplit
  split
  · constructor <;> grind
  · split
    · constructor <;> grind
    · have hmod : q % 2 = 0 ∨ q % 2 = 1 := by omega
      rcases hmod with h | h <;> rw [h] <;> constructor <;> grind

end SqlFragments.Number
