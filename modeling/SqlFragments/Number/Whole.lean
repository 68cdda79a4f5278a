import SqlFragments.Text.Digit

/-!
# Whole numbers in writing

A whole number is written in base ten only where it has no more digits than the limit allows, and
one that is read may have no more of them either.
-/

namespace SqlFragments.Number

open Text

/-- The most digits that a whole number has in writing. -/
def mostDigits : Nat := 4300

def isOverlong (size : Nat) : Bool := mostDigits < (decimalDigits size).length

/-- A whole number that is short enough to be written. -/
structure Whole where
  number : Int
  short : isOverlong number.natAbs = false

def Whole.text (n : Whole) : String := toString n.number

def withSign (negative : Bool) (size : Nat) : Int :=
  if negative then -(size : Int) else size

end SqlFragments.Number
