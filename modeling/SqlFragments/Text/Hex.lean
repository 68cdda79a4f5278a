/-!
# Hexadecimal text

Numbers and bytes in base sixteen. They are written in lower-case digits and read in either
case.
-/

namespace SqlFragments.Text

def hex (width n : Nat) : List Char :=
  let digits := Nat.toDigits 16 n
  List.replicate (width - digits.length) '0' ++ digits

def hexDigit? (c : Char) : Option Nat :=
  if '0' ≤ c ∧ c ≤ '9' then some (c.toNat - 0x30)
  else if 'a' ≤ c ∧ c ≤ 'f' then some (c.toNat - 0x57)
  else if 'A' ≤ c ∧ c ≤ 'F' then some (c.toNat - 0x37)
  else none

def hexBytes (bytes : List UInt8) : List Char :=
  bytes.flatMap fun b => hex 2 b.toNat

end SqlFragments.Text
