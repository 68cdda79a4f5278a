import SqlFragments.Text.Blank
import SqlFragments.Text.Digit

/-!
# Decimal numbers

A decimal number keeps its sign, its digits and its exponent, so 1.5 and 1.50 are two numbers
of equal value. Two notations: the scientific one, which keeps the exponent, and the plain
one, which writes every digit.
-/

namespace SqlFragments.Number

open Text

/-- A decimal number; the exponent says where the point stands behind the digits. -/
inductive Decimal
  | finite (negative : Bool) (coefficient : Nat) (exponent : Int)
  | infinite (negative : Bool)
  | nan (negative signaling : Bool) (payload : Nat)
deriving DecidableEq, Repr

namespace Decimal

def powerOfTen (e : Int) : Rat :=
  if 0 ≤ e then (Nat.pow 10 e.toNat : Rat) else mkRat 1 (Nat.pow 10 (-e).toNat)

def toRat? : Decimal → Option Rat
  | finite negative coefficient exponent =>
    let size := (coefficient : Rat) * powerOfTen exponent
    some (if negative then -size else size)
  | _ => none

def isZero : Decimal → Bool
  | finite _ 0 _ => true
  | _ => false

def sign (negative : Bool) : List Char :=
  if negative then ['-'] else []

/-- Digits with the point in front of the last `places` of them, and a zero in front of a
point that would stand first. -/
def pointed (digits : List Char) (places : Nat) : List Char :=
  let filled := List.replicate (places + 1 - digits.length) '0' ++ digits
  filled.take (filled.length - places) ++ '.' :: filled.drop (filled.length - places)

def plain (negative : Bool) (coefficient : Nat) (exponent : Int) : List Char :=
  let digits := decimalDigits coefficient
  sign negative ++
    if 0 ≤ exponent then digits ++ List.replicate exponent.toNat '0'
    else pointed digits (-exponent).toNat

/-- The whole part of a finite number and what is left in its last place. Where all digits
stand behind the point they need not be divided. -/
def split (coefficient : Nat) (exponent : Int) : Nat × Nat :=
  if coefficient = 0 then (0, 0)
  else if 0 ≤ exponent then (coefficient * Nat.pow 10 exponent.toNat, 0)
  else if (decimalDigits coefficient).length ≤ (-exponent).toNat then (0, coefficient)
  else
    let unit := Nat.pow 10 (-exponent).toNat
    (coefficient / unit, coefficient % unit)

def toNat? (coefficient : Nat) (exponent : Int) : Option Nat :=
  let (whole, rest) := split coefficient exponent
  if rest = 0 then some whole else none

def truncate? : Decimal → Option Int
  | finite negative coefficient exponent =>
    let (whole, _) := split coefficient exponent
    some (if negative then -(whole : Int) else whole)
  | _ => none

/-- Moves zeros at the end of the digits into the exponent, as many as `fuel` allows. -/
def withoutTrailingZeros : Nat → Nat → Int → Nat × Int
  | 0, digits, exponent => (digits, exponent)
  | fuel + 1, digits, exponent =>
    if digits ≠ 0 ∧ digits % 10 = 0 then withoutTrailingZeros fuel (digits / 10) (exponent + 1)
    else (digits, exponent)

/-- The only digits and exponent of a value that have no zero at the end. -/
def normalized (coefficient : Nat) (exponent : Int) : Nat × Int :=
  if coefficient = 0 then (0, 0)
  else withoutTrailingZeros (decimalDigits coefficient).length coefficient exponent

def signedExponent (e : Int) : List Char :=
  (if e < 0 then '-' else '+') :: decimalDigits e.natAbs

/-- The notation that keeps digits and exponent: plain where the exponent is not positive and
the number not below a millionth, otherwise one digit before the point and an exponent. -/
def scientific (coefficient : Nat) (exponent : Int) : List Char :=
  let digits := decimalDigits coefficient
  let leading : Int := exponent + digits.length
  if exponent ≤ 0 ∧ -6 < leading then
    if exponent = 0 then digits else pointed digits (-exponent).toNat
  else
    let mantissa := match digits with
      | first :: second :: rest => first :: '.' :: second :: rest
      | short => short
    if leading = 1 then mantissa else mantissa ++ 'E' :: signedExponent (leading - 1)

def text : Decimal → String
  | finite negative coefficient exponent =>
    String.ofList (sign negative ++ scientific coefficient exponent)
  | infinite negative => String.ofList (sign negative ++ "Infinity".toList)
  | nan negative signaling payload =>
    String.ofList (sign negative ++ (if signaling then "sNaN" else "NaN").toList ++
      if payload = 0 then [] else decimalDigits payload)

def digits? (cs : List Char) : Option Nat :=
  (cs.mapM digitValue?).map numeral

def readExponent? : List Char → Option Int
  | '-' :: rest => if rest.isEmpty then none else (digits? rest).map fun n => -(n : Int)
  | '+' :: rest => if rest.isEmpty then none else (digits? rest).map Int.ofNat
  | rest => if rest.isEmpty then none else (digits? rest).map Int.ofNat

/-- A finite number without its sign: digits, perhaps a point, perhaps an exponent. -/
def readUnsigned? (cs : List Char) : Option (Nat × Int) := do
  let body := cs.takeWhile fun c => c != 'e' && c != 'E'
  let exponent ← match cs.drop body.length with
    | [] => some 0
    | _ :: rest => readExponent? rest
  let whole := body.takeWhile (· != '.')
  let fraction := (body.drop whole.length).drop 1
  if whole.isEmpty && fraction.isEmpty then none
  let coefficient ← digits? (whole ++ fraction)
  return (coefficient, exponent - fraction.length)

def readSign : List Char → Bool × List Char
  | '-' :: rest => (true, rest)
  | '+' :: rest => (false, rest)
  | cs => (false, cs)

def greatestExponent : Int := 999999999999999999

def leastExponent : Int := -1999999999999999997

def inRange (coefficient : Nat) (exponent : Int) : Bool :=
  decide (leastExponent ≤ exponent ∧
    exponent + (decimalDigits coefficient).length - 1 ≤ greatestExponent)

/-- Reads a number of any exponent between blank characters, in which underscores mean nothing:
digits with point and exponent, an infinity, or a number that is none, quiet or signaling. -/
def read? (s : String) : Option Decimal := do
  let (negative, cs) := readSign ((trim s.toList).filter (· != '_'))
  let word := cs.map Char.toLower
  if word = "inf".toList ∨ word = "infinity".toList then return infinite negative
  else if "nan".toList.isPrefixOf word then
    return nan negative false (← digits? (word.drop 3))
  else if "snan".toList.isPrefixOf word then
    return nan negative true (← digits? (word.drop 4))
  else
    let (coefficient, exponent) ← readUnsigned? cs
    return finite negative coefficient exponent

def parse? (s : String) : Option Decimal :=
  (read? s).filter fun
    | finite _ coefficient exponent => inRange coefficient exponent
    | _ => true

end Decimal

end SqlFragments.Number
