/-!
# Places in a document

A cursor is a place in the text of a document. Line and column are counted along the way, since
indentation means something there.
-/

namespace SqlFragments.Yaml

structure Cursor where
  rest : List Char
  index : Nat := 0
  line : Nat := 0
  column : Nat := 0

def isBreak (c : Char) : Bool :=
  c == '\n' || c == '\x85' || c == '\u2028' || c == '\u2029'

def isGap (c : Char) : Bool := c == ' ' || c == '\t'

def isSeparator : Option Char → Bool
  | none => true
  | some c => isGap c || isBreak c

/-- Whether a character, or the end of the document, may follow where a tab may not. -/
def isSpaceOrBreak : Option Char → Bool
  | none => true
  | some c => c == ' ' || isBreak c

def breakText (c : Char) : Char :=
  if c = '\n' ∨ c = '\x85' then '\n' else c

/-- What a break between two lines and the breaks after it leave in a folded text. -/
def folded (first : Char) (more : List Char) : List Char :=
  if breakText first ≠ '\n' then breakText first :: more
  else if more.isEmpty then [' '] else more

namespace Cursor

def peek? (c : Cursor) (n : Nat) : Option Char := (c.rest.drop n).head?

def next (c : Cursor) : Cursor :=
  match c.rest with
  | [] => c
  | ch :: rest =>
    if isBreak ch then ⟨rest, c.index + 1, c.line + 1, 0⟩
    else ⟨rest, c.index + 1, c.line, if ch = '\uFEFF' then c.column else c.column + 1⟩

def skip (c : Cursor) : Nat → Cursor
  | 0 => c
  | n + 1 => (c.next).skip n

def atMark (c : Cursor) (mark : String) : Bool :=
  mark.toList.isPrefixOf c.rest && isSeparator (c.peek? 3)

def atAnyMark (c : Cursor) : Bool :=
  c.atMark "---" || c.atMark "..."

def takeWhile (c : Cursor) (p : Char → Bool) : List Char × Cursor :=
  let taken := c.rest.takeWhile p
  (taken, c.skip taken.length)

def skipWhile (c : Cursor) (p : Char → Bool) : Cursor := (c.takeWhile p).2

def skipComment (c : Cursor) : Cursor :=
  if c.peek? 0 = some '#' then c.skipWhile (!isBreak ·) else c

def takeBreak (c : Cursor) : List Char × Cursor :=
  match c.rest with
  | ch :: _ => if isBreak ch then ([breakText ch], c.next) else ([], c)
  | [] => ([], c)

end Cursor

end SqlFragments.Yaml
