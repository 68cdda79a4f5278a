/-!
# Blank characters

The characters that count as white space in any script, and texts without them at the ends.
-/

namespace SqlFragments.Text

/-- White space of any script: the controls from tab to carriage return and from the file
separator to the unit separator, the next-line control, the spaces of every width, and the
line and paragraph separators. -/
def isBlank (c : Char) : Bool :=
  let n := c.toNat
  (0x09 ≤ n && n ≤ 0x0D) || (0x1C ≤ n && n ≤ 0x20) || n == 0x85 || n == 0xA0 || n == 0x1680 ||
    (0x2000 ≤ n && n ≤ 0x200A) || n == 0x2028 || n == 0x2029 || n == 0x202F || n == 0x205F ||
    n == 0x3000

def dropEndWhile (p : Char → Bool) (cs : List Char) : List Char :=
  (cs.reverse.dropWhile p).reverse

def trim (cs : List Char) : List Char :=
  dropEndWhile isBlank (cs.dropWhile isBlank)

def strip (s : String) : String :=
  String.ofList (trim s.toList)

/-- A text without spaces at its end; other blank characters stay. -/
def stripEndSpaces (s : String) : String :=
  String.ofList (dropEndWhile (· == ' ') s.toList)

@[simp]
theorem toList_strip (s : String) : (strip s).toList = trim s.toList := by
  simp [strip]

end SqlFragments.Text
