import SqlFragments.Failure
import SqlFragments.Yaml.Cursor

/-!
# Block scalars

Scalars of whole lines that are indented alike. Their lines are kept, or folded where a single
break stands between two lines that do not start with a blank. What becomes of the breaks at
the end is said in the header, which may also give the indentation. Texts are put together back
to front.
-/

namespace SqlFragments.Yaml

/-- What becomes of the line breaks at the end of a block scalar: all are kept, one is, or
none. -/
inductive Chomping
  | keep
  | clip
  | strip
deriving DecidableEq, Repr

/-- The header of a block scalar: the chomping, and how much further it is indented than what
it stands in. -/
structure BlockHeader where
  chomping : Chomping := .clip
  increment : Option Nat := none

namespace BlockHeader

def chomping? : Char → Option Chomping
  | '+' => some .keep
  | '-' => some .strip
  | _ => none

def readChomping (header : BlockHeader) (c : Cursor) : BlockHeader × Cursor :=
  match (c.peek? 0).bind chomping? with
  | some chomping => ({ header with chomping }, c.next)
  | none => (header, c)

def readIncrement (header : BlockHeader) (c : Cursor) : Except Failure (BlockHeader × Cursor) :=
  match c.peek? 0 with
  | some '0' => .error .badDocumentToken
  | some d =>
    if d.isDigit then .ok ({ header with increment := some (d.toNat - '0'.toNat) }, c.next)
    else .ok (header, c)
  | none => .ok (header, c)

def read (c : Cursor) : Except Failure (BlockHeader × Cursor) := do
  let (header, signed) := ({} : BlockHeader).readChomping c
  let (header, counted) ← header.readIncrement signed
  let (header, c) :=
    if header.chomping = .clip then header.readChomping counted else (header, counted)
  if !isSpaceOrBreak (c.peek? 0) then throw .badDocumentToken
  let c := (c.skipWhile (· == ' ')).skipComment
  if (c.peek? 0).elim false (!isBreak ·) then throw .badDocumentToken
  return (header, c.takeBreak.2)

end BlockHeader

def skipIndent (indent : Nat) (c : Cursor) : Cursor :=
  c.skip ((c.rest.take (indent - c.column)).takeWhile (· == ' ')).length

/-- The breaks of empty lines, and where the line behind them starts. -/
def blockBreaks (indent : Nat) : Nat → Cursor → List Char → List Char × Cursor
  | 0, c, breaks => (breaks.reverse, c)
  | fuel + 1, c, breaks =>
    let c := skipIndent indent c
    match c.takeBreak with
    | ([], c) => (breaks.reverse, c)
    | (ended, c) => blockBreaks indent fuel c (ended ++ breaks)

/-- The breaks of empty lines in front of the first line, and the greatest column that spaces
reach. -/
def blockIndentation : Nat → Cursor → List Char → Nat → List Char × Nat × Cursor
  | 0, c, breaks, most => (breaks.reverse, most, c)
  | fuel + 1, c, breaks, most =>
    match c.rest with
    | ' ' :: _ => blockIndentation fuel c.next breaks (max most c.next.column)
    | _ =>
      match c.takeBreak with
      | ([], c) => (breaks.reverse, most, c)
      | (ended, c) => blockIndentation fuel c (ended ++ breaks) most

def startsLine (indent : Nat) (c : Cursor) : Bool :=
  c.column == indent && !c.rest.isEmpty

def startsBlank (c : Cursor) : Bool := (c.peek? 0).elim false isGap

/-- The lines of a block scalar behind some breaks: their text back to front, the break that
ends the last line, the breaks behind it, and what follows. -/
def blockLines (folds : Bool) (indent : Nat) :
    Nat → Cursor → List Char → List Char → List Char × List Char × List Char × Cursor
  | 0, c, breaks, text => (text, [], breaks, c)
  | fuel + 1, c, breaks, text =>
    if startsLine indent c then
      let (line, behind) := c.takeWhile (!isBreak ·)
      let text := line.reverse ++ (breaks.reverse ++ text)
      let (ended, behind) := behind.takeBreak
      let (breaks, behind) := blockBreaks indent fuel behind []
      if startsLine indent behind then
        let joint :=
          if folds ∧ ended = ['\n'] ∧ ¬ startsBlank c ∧ ¬ startsBlank behind then
            if breaks.isEmpty then [' '] else []
          else ended
        blockLines folds indent fuel behind breaks (joint ++ text)
      else (text, ended, breaks, behind)
    else (text, [], breaks, c)

def scanBlock (folds : Bool) (outer : Int) (fuel : Nat) (c : Cursor) :
    Except Failure (List Char × Cursor) := do
  let (header, c) ← BlockHeader.read c.next
  let least := (max 1 (outer + 1)).toNat
  let (indent, breaks, c) := match header.increment with
    | some increment =>
      let indent := least + increment - 1
      let (breaks, c) := blockBreaks indent fuel c []
      (indent, breaks, c)
    | none =>
      let (breaks, reached, c) := blockIndentation fuel c [] 0
      (max least reached, breaks, c)
  let (text, ended, breaks, c) := blockLines folds indent fuel c breaks []
  let tail := match header.chomping with
    | .keep => ended ++ breaks
    | .clip => ended
    | .strip => []
  return (text.reverse ++ tail, c)

end SqlFragments.Yaml
