import SqlFragments.Number.Double
import SqlFragments.Number.Whole
import SqlFragments.Text.Hex

/-!
# Structured text

Trees of nothing, truth values, numbers, texts, lists and named members, and the text they
are written as. A whole number is only in a tree where it is short enough to be written. The text
is plain ASCII without controls: all other characters are written by their number, those above
0xFFFF as two surrogates.
-/

namespace SqlFragments

open Text Number

inductive Json
  | null
  | bool (b : Bool)
  | int (n : Whole)
  | float (x : Double)
  | text (s : String)
  | array (items : List Json)
  | object (members : List (String × Json))

namespace Json

def quotedChar (c : Char) : List Char :=
  if c = '"' ∨ c = '\\' then ['\\', c]
  else if c = '\n' then ['\\', 'n']
  else if c = '\r' then ['\\', 'r']
  else if c = '\t' then ['\\', 't']
  else if c = '\x08' then ['\\', 'b']
  else if c = '\x0c' then ['\\', 'f']
  else if ' ' ≤ c ∧ c ≤ '~' then [c]
  else
    let n := c.toNat
    if n < 0x10000 then '\\' :: 'u' :: hex 4 n
    else
      let above := n - 0x10000
      '\\' :: 'u' :: hex 4 (0xD800 + above / 0x400) ++
        '\\' :: 'u' :: hex 4 (0xDC00 + above % 0x400)

def quotedText (s : String) : String :=
  String.ofList ('"' :: s.toList.flatMap quotedChar ++ ['"'])

def floatText : Double → String
  | .nan => "NaN"
  | .infinite negative => if negative then "-Infinity" else "Infinity"
  | x => x.text

structure Spacing where
  comma : String
  colon : String

def Spacing.tight : Spacing := ⟨",", ":"⟩

def Spacing.loose : Spacing := ⟨", ", ": "⟩

mutual

def write (spacing : Spacing) : Json → String
  | null => "null"
  | bool b => if b then "true" else "false"
  | int n => n.text
  | float x => floatText x
  | text s => quotedText s
  | array items => "[" ++ String.intercalate spacing.comma (writeEach spacing items) ++ "]"
  | object members =>
    "\x7b" ++ String.intercalate spacing.comma (writeMembers spacing members) ++ "\x7d"
termination_by structural j => j

def writeEach (spacing : Spacing) : List Json → List String
  | [] => []
  | item :: rest => write spacing item :: writeEach spacing rest
termination_by structural js => js

def writeMembers (spacing : Spacing) : List (String × Json) → List String
  | [] => []
  | (name, value) :: rest =>
    (quotedText name ++ spacing.colon ++ write spacing value) :: writeMembers spacing rest
termination_by structural members => members

end

end Json

end SqlFragments
