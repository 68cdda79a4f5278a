/-!
# Bytes in base 64

Four characters for three bytes. What is not in the alphabet is passed over, and equal signs
fill up the last four characters.
-/

namespace SqlFragments.Text

def base64Digit? (c : Char) : Option Nat :=
  if 'A' ≤ c ∧ c ≤ 'Z' then some (c.toNat - 'A'.toNat)
  else if 'a' ≤ c ∧ c ≤ 'z' then some (c.toNat - 'a'.toNat + 26)
  else if '0' ≤ c ∧ c ≤ '9' then some (c.toNat - '0'.toNat + 52)
  else if c = '+' then some 62
  else if c = '/' then some 63
  else none

/-- Bytes that are read so far, back to front, the bits that are left over, how many characters
of a group of four were read, and how many equal signs stand behind them. -/
structure Base64 where
  bytes : List UInt8 := []
  bits : Nat := 0
  count : Nat := 0
  fill : Nat := 0

namespace Base64

def push (read : Base64) (digit : Nat) : Base64 :=
  match read.count with
  | 0 => { read with bits := digit, count := 1, fill := 0 }
  | 1 => ⟨UInt8.ofNat (4 * read.bits + digit / 16) :: read.bytes, digit % 16, 2, 0⟩
  | 2 => ⟨UInt8.ofNat (16 * read.bits + digit / 4) :: read.bytes, digit % 4, 3, 0⟩
  | _ => ⟨UInt8.ofNat (64 * read.bits + digit) :: read.bytes, 0, 0, 0⟩

/-- Reads characters up to the end, or up to the sign that fills up a group. A group that is
not filled up is refused. -/
def readAll (read : Base64) : List Char → Option (List UInt8)
  | [] => if read.count = 0 then some read.bytes.reverse else none
  | c :: rest =>
    if c = '=' then
      if 2 ≤ read.count then
        if 4 ≤ read.count + read.fill + 1 then some read.bytes.reverse
        else readAll { read with fill := read.fill + 1 } rest
      else readAll read rest
    else match base64Digit? c with
      | some digit => readAll (read.push digit) rest
      | none => readAll read rest

end Base64

def base64Bytes? (cs : List Char) : Option (List UInt8) :=
  ({} : Base64).readAll cs

end SqlFragments.Text
