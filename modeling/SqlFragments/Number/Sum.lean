import SqlFragments.Number.Decimal
import SqlFragments.Number.Round

/-!
# Sums of decimal numbers

A sum of decimal numbers is exact up to 28 digits and rounded to that many beyond, a half to
the even digit. It keeps the smaller exponent of the two where it can.
-/

namespace SqlFragments.Number.Decimal

open Text

def precision : Nat := 28

def limited (negative : Bool) (coefficient : Nat) (exponent : Int) : Decimal :=
  let excess := (decimalDigits coefficient).length - precision
  if excess = 0 then finite negative coefficient exponent
  else
    let kept := roundDiv coefficient (Nat.pow 10 excess)
    if kept = Nat.pow 10 precision then
      finite negative (Nat.pow 10 (precision - 1)) (exponent + excess + 1)
    else finite negative kept (exponent + excess)

/-- The number that stands for a smaller one beside a larger one: what is too small to reach
the digits that are kept counts as little more than nothing. -/
def reach (largerDigits : Nat) (largerExponent : Int) (coefficient : Nat) (exponent : Int) :
    Nat × Int :=
  let floor := largerExponent + min (-1) ((largerDigits : Int) - precision - 2)
  if (decimalDigits coefficient).length + exponent - 1 < floor then (1, floor)
  else (coefficient, exponent)

/-- The sum of two finite numbers, of which the first has the larger exponent. -/
def sumFinite (a : Bool) (high : Nat) (above : Int) (b : Bool) (low : Nat) (below : Int) :
    Decimal :=
  if low = 0 then
    if high = 0 then finite (a && b) 0 below
    else
      let place := max below (above - precision - 1)
      limited a (high * Nat.pow 10 (above - place).toNat) place
  else if high = 0 then limited b low below
  else
    let (low, place) := reach (decimalDigits high).length above low below
    let high : Int := high * (Nat.pow 10 (above - place).toNat : Nat)
    let sum := (if a then -high else high) + (if b then -(low : Int) else low)
    if sum = 0 then finite false 0 below else limited (sum < 0) sum.natAbs place

/-- The sum of two numbers. There is none of a number that signals, nor of both infinities. -/
def sum? : Decimal → Decimal → Option Decimal
  | nan _ true _, _ | _, nan _ true _ => none
  | nan negative _ payload, _ | _, nan negative _ payload => some (nan negative false payload)
  | infinite a, infinite b => if a = b then some (infinite a) else none
  | infinite a, _ | _, infinite a => some (infinite a)
  | finite a x m, finite b y n =>
    some (if m < n then sumFinite b y n a x m else sumFinite a x m b y n)

end SqlFragments.Number.Decimal
