import SqlFragments.Literal.Basic

/-!
# Literals of one kind

Literals that are only meant for values of one kind, and what they answer for others.
-/

namespace SqlFragments.Literal

def quoteValue : Value → Except Failure String
  | .text s => .ok (quote s)
  | _ => .error .wrongType

def numberText : Value → Except Failure String
  | .float _ x => doubleText x
  | .decimal _ x => decimalText x
  | _ => .error .missingAttribute

def dateValueText (hostMinutes : Rat) (timezone : Value) : Value → Except Failure String
  | .dateTime m => .ok (dateTimeText hostMinutes timezone m)
  | .date d => .ok (dateText hostMinutes timezone d)
  | _ => .error .missingAttribute

def byteOf (n : Int) : Except Failure UInt8 :=
  if 0 ≤ n ∧ n < 256 then .ok (UInt8.ofNat n.toNat) else .error .badValue

def byteOfValue : Value → Except Failure UInt8
  | .int n => byteOf n
  | .bool b => byteOf (if b then 1 else 0)
  | _ => .error .wrongType

def greatestCount : Nat := Nat.pow 2 63 - 1

def greatestRoom : Nat := Nat.pow 2 30

def zeroBytes (n : Int) : Except Failure (List UInt8) :=
  if greatestCount < n.natAbs then .error .numberTooLarge
  else if n < 0 then .error .badValue
  else if greatestRoom < n.natAbs then .error .tooMuchMemory
  else .ok (List.replicate n.toNat 0)

/-- The bytes that a value stands for: those it holds, a number of zeros, or its members. -/
def bytesOfValue : Value → Except Failure (List UInt8)
  | .bytes _ data => .ok data
  | .int n => zeroBytes n
  | .bool b => zeroBytes (if b then 1 else 0)
  | .list _ items | .tuple items => items.mapM byteOfValue
  | .dict _ entries => entries.mapM fun entry => byteOfValue entry.1
  | _ => .error .wrongType

def binaryText (v : Value) : Except Failure String :=
  (bytesOfValue v).map bytesText

end SqlFragments.Literal
