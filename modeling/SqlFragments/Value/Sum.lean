import SqlFragments.Failure
import SqlFragments.Number.Sum
import SqlFragments.Value.Change

/-!
# Sums of values

A value that is put behind another: texts, tuples and bytes are joined, numbers are added, and
a list or changeable bytes take the new members up themselves.
-/

namespace SqlFragments

open Number

inductive Summand
  | whole (n : Int)
  | double (x : Double)
  | decimal (x : Decimal)

namespace Summand

def wholeDouble (n : Int) : Except Failure Double :=
  match Double.round (n < 0) n.natAbs 1 with
  | .infinite _ => .error .numberTooLarge
  | x => .ok x

def wholeDecimal (n : Int) : Decimal := .finite (n < 0) n.natAbs 0

def decimals (a b : Decimal) : Except Failure Value :=
  match a.sum? b with
  | some sum => .ok (.decimal 0 sum)
  | none => .error .badNumber

/-- The sum of two numbers. Doubles and decimal numbers do not mix. -/
def plus : Summand → Summand → Except Failure Value
  | whole a, whole b => .ok (.int (a + b))
  | whole a, double y => (wholeDouble a).map fun x => .float 0 (x.add y)
  | double x, whole b => (wholeDouble b).map fun y => .float 0 (x.add y)
  | double x, double y => .ok (.float 0 (x.add y))
  | whole a, decimal y => decimals (wholeDecimal a) y
  | decimal x, whole b => decimals x (wholeDecimal b)
  | decimal x, decimal y => decimals x y
  | double _, decimal _ | decimal _, double _ => .error .wrongType

end Summand

namespace Value

def summand? : Value → Option Summand
  | bool b => some (.whole (if b then 1 else 0))
  | int n => some (.whole n)
  | float _ x => some (.double x)
  | decimal _ x => some (.decimal x)
  | _ => none

/-- Changeable bytes behind some. They cannot be put behind themselves, unless there are none. -/
def plusBytes (label : Label) (data : List UInt8) (form : BytesForm) (added : List UInt8) :
    Except Failure Value :=
  if form = .changeable label ∧ !added.isEmpty then .error .inUse
  else .ok (bytes (.changeable label) (data ++ added))

/-- A value put behind another. -/
def plus (first second : Value) : Except Failure Value :=
  match first, second with
  | text a, text b => .ok (text (a ++ b))
  | tuple xs, tuple ys => .ok (tuple (xs ++ ys))
  | bytes .fixed a, bytes _ b => .ok (bytes .fixed (a ++ b))
  | bytes (.changeable label) a, bytes form b => plusBytes label a form b
  | list label items, added =>
    match added.each? with
    | some more => .ok (list label (items ++ more))
    | none => .error .wrongType
  | a, b =>
    match a.summand?, b.summand? with
    | some x, some y => x.plus y
    | _, _ => .error .wrongType

/-- Whether a value takes up itself what is put behind it. -/
def takesUp : Value → Bool
  | bytes (.changeable _) _ | list _ _ => true
  | _ => false

def growth? (first second : Value) : Option Change :=
  match first.plus second with
  | .ok (list label items) => some (.members label items)
  | .ok (bytes (.changeable label) data) => some (.bytes label data)
  | _ => none

end Value

end SqlFragments
