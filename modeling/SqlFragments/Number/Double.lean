import SqlFragments.Number.Decimal
import SqlFragments.Number.Round

/-!
# Double precision numbers

Binary floating point numbers of 53 bits, kept exactly: a finite one is a whole number times
a power of two. Arithmetic is done on exact values and rounded once, to the nearest number
and a half to the even mantissa. Text is the shortest decimal that reads back as the same
number.
-/

namespace SqlFragments.Number

open Text

/-- A double precision number. A finite one has the size `mantissa * 2 ^ exponent`. -/
inductive Double
  | finite (negative : Bool) (mantissa : Nat) (exponent : Int)
  | infinite (negative : Bool)
  | nan
deriving DecidableEq, Repr

namespace Double

def zero (negative : Bool) : Double := finite negative 0 0

/-- The exponent of the lowest bit that is kept of `num / den`: 53 bits of a normal number,
and never below the least exponent. -/
def lowestBit (num den : Nat) : Int :=
  let estimate : Int := (num.log2 : Int) - den.log2
  let below := if 0 ≤ estimate then num < den * Nat.pow 2 estimate.toNat
    else num * Nat.pow 2 (-estimate).toNat < den
  max ((if below then estimate - 1 else estimate) - 52) (-1074)

def round (negative : Bool) (num den : Nat) : Double :=
  if num = 0 then zero negative
  else
    let exponent := lowestBit num den
    let mantissa :=
      if 0 ≤ exponent then roundDiv num (den * Nat.pow 2 exponent.toNat)
      else roundDiv (num * Nat.pow 2 (-exponent).toNat) den
    if mantissa = 0 then zero negative
    else
      let (mantissa, exponent) :=
        if mantissa = Nat.pow 2 53 then (Nat.pow 2 52, exponent + 1) else (mantissa, exponent)
      if exponent > 971 then infinite negative else finite negative mantissa exponent

def ofRat (q : Rat) : Double :=
  round (q.num < 0) q.num.natAbs q.den

def ofNat (n : Nat) : Double := round false n 1

def powerOfTwo (e : Int) : Rat :=
  if 0 ≤ e then (Nat.pow 2 e.toNat : Rat) else mkRat 1 (Nat.pow 2 (-e).toNat)

def toRat? : Double → Option Rat
  | finite negative mantissa exponent =>
    let size := (mantissa : Rat) * powerOfTwo exponent
    some (if negative then -size else size)
  | _ => none

def isZero : Double → Bool
  | finite _ 0 _ => true
  | _ => false

def negate : Double → Double
  | finite negative mantissa exponent => finite (!negative) mantissa exponent
  | infinite negative => infinite (!negative)
  | nan => nan

def isNegative : Double → Bool
  | finite negative _ _ => negative
  | infinite negative => negative
  | nan => false

/-- An operation on finite numbers, done exactly and rounded once; `sign` is that of a zero. -/
def rounded (op : Rat → Rat → Rat) (sign : Bool) (x y : Double) : Double :=
  match x.toRat?, y.toRat? with
  | some a, some b => if op a b = 0 then zero sign else ofRat (op a b)
  | _, _ => nan

/-- The rounded sum. A sum of zero only has a minus sign when both numbers do. -/
def add (x y : Double) : Double :=
  match x, y with
  | infinite a, infinite b => if a = b then infinite a else nan
  | infinite a, finite _ _ _ => infinite a
  | finite _ _ _, infinite b => infinite b
  | x, y => rounded (· + ·) (x.isNegative && y.isNegative) x y

def mul (x y : Double) : Double :=
  let sign := x.isNegative != y.isNegative
  match x, y with
  | infinite _, infinite _ => infinite sign
  | infinite _, finite _ m _ | finite _ m _, infinite _ => if m = 0 then nan else infinite sign
  | x, y => rounded (· * ·) sign x y

def div (x y : Double) : Double :=
  rounded (· / ·) (x.isNegative != y.isNegative) x y

def toNat? (mantissa : Nat) (exponent : Int) : Option Nat :=
  if 0 ≤ exponent then some (mantissa * Nat.pow 2 exponent.toNat)
  else
    let unit := Nat.pow 2 (-exponent).toNat
    if mantissa % unit = 0 then some (mantissa / unit) else none

def truncate? : Double → Option Int
  | finite negative mantissa exponent =>
    let size : Nat := if 0 ≤ exponent then mantissa * Nat.pow 2 exponent.toNat
      else mantissa / Nat.pow 2 (-exponent).toNat
    some (if negative then -(size : Int) else size)
  | _ => none

/-- Searches the grids of decimals that divide `value` from coarse to fine for one with a
point between `low` and `high`. Each grid offers the neighbours of `value` below and above;
of two that fit the nearer is taken, and on a tie the even one. -/
def search (value low high : Nat) (closed : Bool) : Nat → Nat × Nat
  | 0 => (value, 0)
  | place + 1 =>
    let unit := Nat.pow 10 (place + 1)
    let floor := value / unit
    let rest := value % unit
    let fits (p : Nat) : Bool :=
      if closed then low ≤ p * unit && p * unit ≤ high else low < p * unit && p * unit < high
    if rest = 0 then (floor, place + 1)
    else if fits floor ∧ (2 * rest < unit ∨ (2 * rest = unit ∧ floor % 2 = 0) ∨ ¬ fits (floor + 1))
    then (floor, place + 1)
    else if fits (floor + 1) then (floor + 1, place + 1)
    else search value low high closed place

/-- The shortest digits, with their exponent of ten, that are nearer to the number than to
its neighbours; of the shortest ones the nearest. The bounds are the middles between the
number and its neighbours, and they belong to the number when its mantissa is even. Below a
power of two the lower neighbour is half as far. -/
def shortest (mantissa : Nat) (exponent : Int) : Nat × Int :=
  if mantissa = 0 then (0, 0)
  else
    let scale := if 0 ≤ exponent then Nat.pow 2 exponent.toNat else Nat.pow 5 (-exponent).toNat
    let shift : Int := if 0 ≤ exponent then -2 else exponent - 2
    let lowGap := if mantissa = Nat.pow 2 52 ∧ -1074 < exponent then 1 else 2
    let value := 100 * mantissa * scale
    let low := 25 * (4 * mantissa - lowGap) * scale
    let high := 25 * (4 * mantissa + 2) * scale
    let length := (decimalDigits value).length
    let (digits, place) := search value low high (mantissa % 2 = 0) (length - 1)
    Decimal.withoutTrailingZeros length digits (shift + place)

/-- How numbers are written: positional from a ten thousandth up to below ten to the
sixteenth, with a point and at least one digit on both sides, otherwise with an exponent of a
sign and at least two digits. -/
structure Layout where
  least : Int := -4
  bound : Int := 16
  exponentWidth : Nat := 2

def Layout.write (layout : Layout) (digits : Nat) (exponent : Int) : List Char :=
  let ds := decimalDigits digits
  let leading : Int := exponent + ds.length - 1
  if layout.least ≤ leading ∧ leading < layout.bound then
    if 0 ≤ exponent then ds ++ List.replicate exponent.toNat '0' ++ ['.', '0']
    else Decimal.pointed ds (-exponent).toNat
  else
    let mantissa := match ds with
      | first :: second :: rest => first :: '.' :: second :: rest
      | short => short
    mantissa ++ 'e' :: (if leading < 0 then '-' else '+') ::
      padded layout.exponentWidth leading.natAbs

def text : Double → String
  | finite negative mantissa exponent =>
    let (digits, place) := shortest mantissa exponent
    String.ofList (Decimal.sign negative ++ ({} : Layout).write digits place)
  | infinite negative => if negative then "-inf" else "inf"
  | nan => "nan"

/-- The exponents of ten from which on digits in front of the point are too large, and below
which they are too small, to be told from an infinity or from zero. -/
def farthestExponent : Int := 400

def ofDecimal : Decimal → Double
  | .finite negative coefficient exponent =>
    let leading := exponent + (decimalDigits coefficient).length
    if coefficient = 0 ∨ leading < -farthestExponent then zero negative
    else if farthestExponent < leading then infinite negative
    else if 0 ≤ exponent then round negative (coefficient * Nat.pow 10 exponent.toNat) 1
    else round negative coefficient (Nat.pow 10 (-exponent).toNat)
  | .infinite negative => infinite negative
  | .nan _ _ _ => nan

/-- Whether each underscore of a text stands between two digits. -/
def gapsFit : List Char → Bool
  | [] => true
  | '_' :: _ => false
  | c :: '_' :: d :: rest =>
    (digitValue? c).isSome && (digitValue? d).isSome && gapsFit (d :: rest)
  | [_, '_'] => false
  | _ :: rest => gapsFit rest

/-- Reads a number from decimal text between blank characters. A word for what is no number
stands alone. -/
def parse? (s : String) : Option Double :=
  if gapsFit (trim s.toList) then
    match Decimal.read? s with
    | some (.nan _ signaling _) =>
      let last := (trim s.toList).getLast?
      if signaling ∨ (last ≠ some 'n' ∧ last ≠ some 'N') then none else some nan
    | read => read.map ofDecimal
  else none

def ratio? : Double → Option (Nat × Nat)
  | finite _ mantissa exponent =>
    if 0 ≤ exponent then some (mantissa * Nat.pow 2 exponent.toNat, 1)
    else some (mantissa, Nat.pow 2 (-exponent).toNat)
  | _ => none

end Double

end SqlFragments.Number
