import SqlFragments.Text.Hex
import SqlFragments.Text.Printable

/-!
# Quoted text

Texts and bytes as they stand inside messages: between quotation marks, with a backslash in
front of whatever would be read differently or not show.
-/

namespace SqlFragments.Text

/-- Apostrophes stand around a text unless it holds an apostrophe and no double quote. -/
def quoteMark (cs : List Char) : Char :=
  if cs.contains '\'' && !cs.contains '"' then '"' else '\''

def hiddenCode (n : Nat) : List Char :=
  if n < 0x100 then '\\' :: 'x' :: hex 2 n
  else if n < 0x10000 then '\\' :: 'u' :: hex 4 n
  else '\\' :: 'U' :: hex 8 n

def quotedChar (mark c : Char) : List Char :=
  if c = mark ∨ c = '\\' then ['\\', c]
  else if c = '\t' then ['\\', 't']
  else if c = '\n' then ['\\', 'n']
  else if c = '\r' then ['\\', 'r']
  else if isPrintable c then [c]
  else hiddenCode c.toNat

def quoted (s : String) : String :=
  let mark := quoteMark s.toList
  String.ofList (mark :: s.toList.flatMap (quotedChar mark) ++ [mark])

def quotedByte (escapes : Char → Bool) (b : UInt8) : List Char :=
  let c := Char.ofNat b.toNat
  if escapes c ∨ c = '\\' then ['\\', c]
  else if c = '\t' then ['\\', 't']
  else if c = '\n' then ['\\', 'n']
  else if c = '\r' then ['\\', 'r']
  else if b < 0x20 ∨ 0x7F ≤ b then '\\' :: 'x' :: hex 2 b.toNat
  else [c]

/-- Fixed bytes between quotation marks: the mark in use takes a backslash. -/
def quotedBytes (bytes : List UInt8) : String :=
  let mark := quoteMark (bytes.map fun b => Char.ofNat b.toNat)
  String.ofList ('b' :: mark :: bytes.flatMap (quotedByte (· == mark)) ++ [mark])

/-- Changeable bytes between quotation marks: every apostrophe takes a backslash, also where
double quotes stand around it. -/
def quotedByteArray (bytes : List UInt8) : String :=
  let mark := quoteMark (bytes.map fun b => Char.ofNat b.toNat)
  "bytearray(" ++
    String.ofList ('b' :: mark :: bytes.flatMap (quotedByte (· == '\'')) ++ [mark]) ++ ")"

end SqlFragments.Text
