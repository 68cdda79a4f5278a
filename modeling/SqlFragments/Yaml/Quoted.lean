import SqlFragments.Failure
import SqlFragments.Text.Hex
import SqlFragments.Yaml.Cursor

/-!
# Quoted scalars

Scalars between quotes. Lines are folded. Between single quotes a quote is written twice;
between double quotes a backslash stands in front of letters and codes for characters. Texts
are put together back to front.
-/

namespace SqlFragments.Yaml

def escapeOf? : Char → Option Char
  | '0' => some '\x00'
  | 'a' => some '\x07'
  | 'b' => some '\x08'
  | 't' | '\t' => some '\t'
  | 'n' => some '\n'
  | 'v' => some '\x0b'
  | 'f' => some '\x0c'
  | 'r' => some '\r'
  | 'e' => some '\x1b'
  | ' ' => some ' '
  | '"' => some '"'
  | '\\' => some '\\'
  | '/' => some '/'
  | 'N' => some '\x85'
  | '_' => some '\xa0'
  | 'L' => some '\u2028'
  | 'P' => some '\u2029'
  | _ => none

def codeLength? : Char → Option Nat
  | 'x' => some 2
  | 'u' => some 4
  | 'U' => some 8
  | _ => none

def readCode (letter : Char) (rest : List Char) : Option (Nat × List Char) := do
  let length ← codeLength? letter
  let digits ← (rest.take length).mapM Text.hexDigit?
  if digits.length = length then
    return (digits.foldl (fun n d => 16 * n + d) 0, rest.drop length)
  else none

/-- The number of the character that two surrogates stand for, the second of which follows
behind a backslash, and the length of what follows. Any other number stands alone. -/
def joinSurrogates (code : Nat) (rest : List Char) : Nat × Nat :=
  match rest with
  | '\\' :: letter :: behind =>
    match readCode letter behind with
    | some (low, after) =>
      if 0xD800 ≤ code ∧ code < 0xDC00 ∧ 0xDC00 ≤ low ∧ low < 0xE000 then
        (0x10000 + 0x400 * (code - 0xD800) + (low - 0xDC00), rest.length - after.length)
      else (code, 0)
    | none => (code, 0)
  | _ => (code, 0)

def quotedBreaks : Nat → Cursor → List Char → Except Failure (List Char × Cursor)
  | 0, c, breaks => .ok (breaks.reverse, c)
  | fuel + 1, c, breaks =>
    if c.atAnyMark then .error .badDocumentToken
    else
      let c := c.skipWhile isGap
      match c.rest with
      | ch :: _ =>
        if isBreak ch then quotedBreaks fuel c.next (breakText ch :: breaks)
        else .ok (breaks.reverse, c)
      | [] => .ok (breaks.reverse, c)

/-- The rest of a quoted scalar, up to and with its closing mark. The text so far stands back
to front. -/
def scanQuoted (mark : Char) : Nat → Cursor → List Char → Except Failure (List Char × Cursor)
  | 0, _, _ => .error .badDocumentToken
  | fuel + 1, c, text =>
    match c.rest with
    | [] => .error .badDocumentToken
    | ch :: rest =>
      if ch = '\'' ∧ mark = '\'' ∧ rest.head? = some '\'' then
        scanQuoted mark fuel (c.skip 2) ('\'' :: text)
      else if ch = mark then .ok (text.reverse, c.next)
      else if ch = '\\' ∧ mark = '"' then
        let c := c.next
        match c.rest with
        | [] => .error .badDocumentToken
        | letter :: behind =>
          match escapeOf? letter, codeLength? letter with
          | some meant, _ => scanQuoted mark fuel c.next (meant :: text)
          | none, some length =>
            match readCode letter behind with
            | some (code, rest) =>
              if 0x80000000 ≤ code then .error .numberTooLarge
              else if 0x110000 ≤ code then .error .badValue
              else
                let (code, more) := joinSurrogates code rest
                scanQuoted mark fuel (c.skip (length + 1 + more)) (Char.ofNat code :: text)
            | none => .error .badDocumentToken
          | none, none =>
            if isBreak letter then
              match quotedBreaks fuel c.next [] with
              | .ok (breaks, c) => scanQuoted mark fuel c (breaks.reverse ++ text)
              | .error cause => .error cause
            else .error .badDocumentToken
      else if isSeparator (some ch) then
        let (spaces, c) := c.takeWhile isGap
        match c.rest with
        | [] => .error .badDocumentToken
        | ch :: _ =>
          if isBreak ch then
            match quotedBreaks fuel c.next [] with
            | .ok (breaks, c) => scanQuoted mark fuel c ((folded ch breaks).reverse ++ text)
            | .error cause => .error cause
          else scanQuoted mark fuel c (spaces.reverse ++ text)
      else scanQuoted mark fuel c.next (ch :: text)

end SqlFragments.Yaml
