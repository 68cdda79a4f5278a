import SqlFragments.Number.Double

/-!
# Numbers with a number of places

Doubles with so many digits behind the point, or so many digits in all. The digits are those
of the exact value, rounded once, a half to the even digit.
-/

namespace SqlFragments.Number

open Text

namespace Double

def fixed (num den places : Nat) : Nat :=
  roundDiv (num * Nat.pow 10 places) den

def leadingExponent (num den : Nat) : Int :=
  let estimate : Int := (decimalDigits num).length - (decimalDigits den).length
  let reached := if 0 ≤ estimate then den * Nat.pow 10 estimate.toNat ≤ num
    else den ≤ num * Nat.pow 10 (-estimate).toNat
  if reached then estimate else estimate - 1

/-- The first digit of `num / den` and `places` more, and the exponent of ten of the first. -/
def leading (num den places : Nat) : Nat × Int :=
  if num = 0 then (0, 0)
  else
    let exponent := leadingExponent num den
    let shift := (places : Int) - exponent
    let digits := if 0 ≤ shift then roundDiv (num * Nat.pow 10 shift.toNat) den
      else roundDiv num (den * Nat.pow 10 (-shift).toNat)
    if digits = Nat.pow 10 (places + 1) then (Nat.pow 10 places, exponent + 1)
    else (digits, exponent)

end Double

/-- The three ways to write a double with a number of places: all digits in front of the
point, one digit in front of it and an exponent, or whichever of the two is shorter for a
number of digits in all. -/
inductive Notation
  | positional
  | exponential
  | general
deriving DecidableEq, Repr

namespace Notation

/-- A point behind digits that has nothing behind it is left out, unless it is `kept`. -/
def withPoint (kept : Bool) (digits : List Char) (places : Nat) : List Char :=
  if places = 0 then digits ++ (if kept then ['.'] else []) else Decimal.pointed digits places

def withoutZeros (cs : List Char) : List Char :=
  if cs.contains '.' then
    let cs := dropEndWhile (· == '0') cs
    if cs.getLast? = some '.' then cs.dropLast else cs
  else cs

def exponentText (exponent : Int) : List Char :=
  'e' :: (if exponent < 0 then '-' else '+') :: padded 2 exponent.natAbs

/-- The size of a finite double. With `full` zeros at the end and the point stay. -/
def sizeText (form : Notation) (places : Nat) (full : Bool) (num den : Nat) : List Char :=
  let trimmed (cs : List Char) : List Char := if full then cs else withoutZeros cs
  match form with
  | positional => withPoint full (decimalDigits (Double.fixed num den places)) places
  | exponential =>
    let (digits, exponent) := Double.leading num den places
    withPoint full (padded (places + 1) digits) places ++ exponentText exponent
  | general =>
    let places := places - 1
    let (digits, exponent) := Double.leading num den places
    if -4 ≤ exponent ∧ exponent ≤ places then
      trimmed (withPoint full (decimalDigits digits) (places - exponent).toNat)
    else
      trimmed (withPoint full (padded (places + 1) digits) places) ++ exponentText exponent

def write (form : Notation) (places : Nat) (full : Bool) (x : Double) : List Char :=
  match x, x.ratio? with
  | .finite negative _ _, some (num, den) =>
    Decimal.sign negative ++ form.sizeText places full num den
  | .infinite negative, _ => Decimal.sign negative ++ "inf".toList
  | _, _ => "nan".toList

end Notation

end SqlFragments.Number
