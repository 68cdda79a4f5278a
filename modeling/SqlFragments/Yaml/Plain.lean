import SqlFragments.Yaml.Cursor

/-!
# Plain scalars

Scalars without quotes. They end where something else may start, and go on over line breaks as
long as the lines are indented far enough. Texts are put together back to front.
-/

namespace SqlFragments.Yaml

/-- The breaks and spaces in front of the next line of a plain scalar, or `none` at a mark of
a document. -/
def plainBreaks : Nat → Cursor → List Char → Option (List Char × Cursor)
  | 0, c, breaks => some (breaks.reverse, c)
  | fuel + 1, c, breaks =>
    match c.rest with
    | ' ' :: _ => plainBreaks fuel c.next breaks
    | ch :: _ =>
      if isBreak ch then
        let c := c.next
        if c.atAnyMark then none else plainBreaks fuel c (breakText ch :: breaks)
      else some (breaks.reverse, c)
    | [] => some (breaks.reverse, c)

/-- What stands between two words of a plain scalar, whether a line ended there, and where the
next word would start. -/
def plainSpaces (fuel : Nat) (c : Cursor) : List Char × Bool × Cursor :=
  let (spaces, c) := c.takeWhile (· == ' ')
  match c.rest with
  | ch :: _ =>
    if isBreak ch then
      let c := c.next
      if c.atAnyMark then ([], true, c)
      else match plainBreaks fuel c [] with
        | none => ([], true, c)
        | some (breaks, c) => (folded ch breaks, true, c)
    else (spaces, false, c)
  | [] => (spaces, false, c)

def wordLength (inFlow : Bool) : List Char → Nat
  | [] => 0
  | ch :: rest =>
    let ends := isSeparator (some ch) ||
      (ch == ':' && (isSeparator rest.head? ||
        (inFlow && (rest.head?.elim false (",[]\x7b\x7d".toList.contains ·))))) ||
      (inFlow && ",?[]\x7b\x7d".toList.contains ch)
    if ends then 0 else wordLength inFlow rest + 1

/-- A plain scalar: its text, whether a line ended behind its last word, and what follows. The
text so far stands back to front. -/
def scanPlain (inFlow : Bool) (indent : Int) :
    Nat → Cursor → List Char → List Char → Bool → List Char × Bool × Cursor
  | 0, c, text, _, ended => (text.reverse, ended, c)
  | fuel + 1, c, text, spaces, ended =>
    let length := if c.peek? 0 = some '#' then 0 else wordLength inFlow c.rest
    if length = 0 then (text.reverse, ended, c)
    else
      let text := (c.rest.take length).reverse ++ (spaces.reverse ++ text)
      let (spaces, ended, after) := plainSpaces fuel (c.skip length)
      if spaces.isEmpty ∨ after.peek? 0 = some '#' ∨ (!inFlow ∧ (after.column : Int) < indent) then
        (text.reverse, ended, after)
      else scanPlain inFlow indent fuel after text spaces ended

def indicators : List Char := "-?:,[]\x7b\x7d#&*!|>'\"%@\x60".toList

def startsPlain (inFlow : Bool) (ch : Char) (next : Option Char) : Bool :=
  (!isSeparator (some ch) && !indicators.contains ch) ||
    (!isSeparator next && (ch == '-' || (!inFlow && (ch == '?' || ch == ':'))))

end SqlFragments.Yaml
