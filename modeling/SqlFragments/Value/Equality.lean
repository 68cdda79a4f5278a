import SqlFragments.Calendar.Instant
import SqlFragments.Value.Basic

/-!
# Equality of values

Numbers are equal when their exact values are, whatever their type, and truth values count as
one and zero. Lists, tuples and dictionaries are equal member by member, where a member is
also equal to itself when it is not a number. Fragments are equal when form and fields are;
templates and fragments of the user only equal themselves. A number that signals cannot be
compared with numbers, so the answer may be missing.
-/

namespace SqlFragments

open Number Calendar

/-- A number for comparison: digits without a zero at the end and an exponent of ten, or an
infinity. Equal values have the same digits and exponent. -/
inductive Magnitude
  | finite (negative : Bool) (digits : Nat) (exponent : Int)
  | infinite (negative : Bool)
deriving DecidableEq

def Magnitude.of (negative : Bool) (digits : Nat) (exponent : Int) : Magnitude :=
  let (digits, exponent) := Decimal.normalized digits exponent
  finite (negative && digits != 0) digits exponent

namespace Value

/-- What a value is compared as among numbers. A half is five tenths, so every double has
digits and an exponent of ten. -/
def magnitude? : Value → Option Magnitude
  | bool b => some (.of false (if b then 1 else 0) 0)
  | int n => some (.of (n < 0) n.natAbs 0)
  | float _ x => match x with
    | .infinite negative => some (.infinite negative)
    | .nan => none
    | .finite negative mantissa exponent =>
      if 0 ≤ exponent then some (.of negative (mantissa * Nat.pow 2 exponent.toNat) 0)
      else some (.of negative (mantissa * Nat.pow 5 (-exponent).toNat) exponent)
  | decimal _ x => match x with
    | .infinite negative => some (.infinite negative)
    | .nan _ _ _ => none
    | .finite negative coefficient exponent => some (.of negative coefficient exponent)
  | _ => none

def isNumber : Value → Bool
  | bool _ | int _ | float _ _ | decimal _ _ => true
  | _ => false

def isSignaling : Value → Bool
  | decimal _ (.nan _ signaling _) => signaling
  | _ => false

def numericallyEqual (a b : Value) : Bool :=
  match a.magnitude?, b.magnitude? with
  | some x, some y => x == y
  | _, _ => false

def compareNumbers (a b : Value) : Option Bool :=
  if a.isNumber && b.isNumber && (a.isSignaling || b.isSignaling) then none
  else some (numericallyEqual a b)

def identicalNaN : Value → Value → Bool
  | float l .nan, float m .nan => l == m
  | decimal l (.nan _ _ _), decimal m (.nan _ _ _) => l == m
  | _, _ => false

/-- Two moments are equal when both or neither say their offset and the clocks agree. -/
def momentsEqual (a b : DateTime) : Bool :=
  a.offset.isSome == b.offset.isSome && Instant.ofDateTime a == Instant.ofDateTime b

def andAlso (first : Option Bool) (next : Unit → Option Bool) : Option Bool :=
  match first with
  | some true => next ()
  | other => other

end Value

mutual

def Value.equal? : Value → Value → Option Bool
  | .null, .null => some true
  | .text s, .text t => some (s == t)
  | .dateTime a, .dateTime b => some (Value.momentsEqual a b)
  | .date a, .date b => some (a == b)
  | .bytes _ a, .bytes _ b => some (a == b)
  | .list _ xs, .list _ ys => if xs.length = ys.length then Value.equalEach? xs ys else some false
  | .tuple xs, .tuple ys => Value.equalEach? xs ys
  | .dict _ xs, .dict _ ys =>
    if xs.length = ys.length then Value.equalEntries? xs ys else some false
  | .object l _, .object m _ => some (l == m)
  | .function l, .function m => some (l == m)
  | .fragment f, .fragment g => Fragment.equal? f g
  | a, b => Value.compareNumbers a b
termination_by structural x => x

def Value.equalEach? : List Value → List Value → Option Bool
  | [], [] => some true
  | x :: xs, y :: ys =>
    Value.andAlso (if Value.identicalNaN x y then some true else Value.equal? x y)
      fun _ => Value.equalEach? xs ys
  | _, _ => some false
termination_by structural x => x

/-- Whether every key stands among other entries with the same value. Keys never signal. -/
def Value.equalEntries? : List (Value × Value) → List (Value × Value) → Option Bool
  | [], _ => some true
  | (k, v) :: rest, others =>
    match others.find? fun other =>
        Value.identicalNaN k other.1 || Value.equal? k other.1 == some true with
    | some other =>
      Value.andAlso (if Value.identicalNaN v other.2 then some true else Value.equal? v other.2)
        fun _ => Value.equalEntries? rest others
    | none => some false
termination_by structural x => x

def Fragment.equal? : Fragment → Fragment → Option Bool
  | .raw a, .raw b => if Value.identicalNaN a b then some true else Value.equal? a b
  | .identifier a, .identifier b => some (a == b)
  | .parameter a, .parameter b => if Value.identicalNaN a b then some true else Value.equal? a b
  | .parameterList as s, .parameterList bs t =>
    Value.andAlso (Value.equalEach? as bs)
      fun _ => if Value.identicalNaN s t then some true else Value.equal? s t
  | .columnList as s, .columnList bs t =>
    Value.andAlso (Value.equalEach? as bs)
      fun _ => if Value.identicalNaN s t then some true else Value.equal? s t
  | .lines as s, .lines bs t =>
    Value.andAlso (Value.equalEach? as bs)
      fun _ => if Value.identicalNaN s t then some true else Value.equal? s t
  | .clause as a, .clause bs b =>
    Value.andAlso (Value.equalEach? as bs)
      fun _ => if Value.identicalNaN a b then some true else Value.equal? a b
  | .template l _ _ _, .template m _ _ _ => some (l == m)
  | .leaf l _ _ _ _, .leaf m _ _ _ _ => some (l == m)
  | .probe l _, .probe m _ => some (l == m)
  | .deferred l _ _, .deferred m _ _ => some (l == m)
  | .endless l _, .endless m _ => some (l == m)
  | .unrenderable l _ _, .unrenderable m _ _ => some (l == m)
  | _, _ => some false
termination_by structural x => x

end

def Value.same? (a b : Value) : Option Bool :=
  if Value.identicalNaN a b then some true else Value.equal? a b

def Value.sameKey (a b : Value) : Bool :=
  Value.same? a b == some true

end SqlFragments
