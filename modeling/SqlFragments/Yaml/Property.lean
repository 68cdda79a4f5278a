import SqlFragments.Failure
import SqlFragments.Text.Hex
import SqlFragments.Yaml.Cursor

/-!
# Names, tags and directives

What stands in front of nodes and documents: names by which a node is known and used again,
tags that say of what type a node is, and directives that say of what version a document is
and what the handles of its tags stand for.
-/

namespace SqlFragments.Yaml

inductive Directive
  | version (major minor : Nat)
  | handle (name stem : String)
  | other
deriving DecidableEq, Repr

def isWordChar (c : Char) : Bool := c.isAlphanum || c == '-' || c == '_'

def expectAt (c : Cursor) (p : Option Char → Bool) : Except Failure Unit :=
  if p (c.peek? 0) then .ok () else .error .badDocumentToken

def scanWord (c : Cursor) : Except Failure (String × Cursor) :=
  match c.takeWhile isWordChar with
  | ([], _) => .error .badDocumentToken
  | (word, c) => .ok (String.ofList word, c)

def scanName (c : Cursor) : Except Failure (String × Cursor) := do
  let (name, c) ← scanWord c.next
  expectAt c fun next => isSeparator next || (next.elim false ("?:,]\x7d%@\x60".toList.contains ·))
  return (name, c)

/-! ## Tags -/

/-- The handle of a tag: an exclamation mark, or a name between two of them. -/
def scanHandle (c : Cursor) : Except Failure (String × Cursor) := do
  expectAt c (· == some '!')
  if c.peek? 1 = some ' ' then return ("!", c.next)
  let (word, behind) := c.next.takeWhile isWordChar
  expectAt behind (· == some '!')
  return (String.ofList ('!' :: word ++ ['!']), behind.next)

def isTagChar (c : Char) : Bool :=
  c.isAlphanum || "-;/?:@&=+$,_.!~*'()[]".toList.contains c

/-- Bytes that are written as a percent sign and two digits each, and what follows them. -/
def readEscapes : List Char → Except Failure (List UInt8 × List Char)
  | '%' :: a :: b :: rest =>
    match Text.hexDigit? a, Text.hexDigit? b with
    | some high, some low => do
      let (bytes, rest) ← readEscapes rest
      return (UInt8.ofNat (16 * high + low) :: bytes, rest)
    | _, _ => .error .badDocumentToken
  | '%' :: _ => .error .badDocumentToken
  | rest => .ok ([], rest)

def readTagText : Nat → List Char → List Char → Except Failure (List Char × List Char)
  | 0, rest, text => .ok (text, rest)
  | fuel + 1, rest, text =>
    match rest with
    | '%' :: _ => do
      let (bytes, rest) ← readEscapes rest
      match String.fromUTF8? (ByteArray.mk bytes.toArray) with
      | some s => readTagText fuel rest (s.toList.reverse ++ text)
      | none => .error .badDocumentToken
    | ch :: rest =>
      if isTagChar ch then readTagText fuel rest (ch :: text) else .ok (text, ch :: rest)
    | [] => .ok (text, [])

def scanTagText (fuel : Nat) (c : Cursor) : Except Failure (String × Cursor) := do
  let (text, rest) ← readTagText fuel c.rest []
  let length := c.rest.length - rest.length
  if length = 0 then throw .badDocumentToken
  return (String.ofList text.reverse, c.skip length)

/-- A tag: its handle, unless it is written out in angle brackets or has nothing else, its text
and what follows. -/
def scanTag (fuel : Nat) (c : Cursor) :
    Except Failure (Option String × String × Cursor) := do
  let (handle, text, c) ←
    if c.peek? 1 = some '<' then do
      let (text, c) ← scanTagText fuel (c.skip 2)
      expectAt c (· == some '>')
      pure (none, text, c.next)
    else if isSeparator (c.peek? 1) then pure (none, "!", c.next)
    else do
      let word := c.rest.tail.takeWhile fun ch => !isSpaceOrBreak (some ch)
      let (handle, c) ← if word.contains '!' then scanHandle c else pure ("!", c.next)
      let (text, c) ← scanTagText fuel c
      pure (some handle, text, c)
  expectAt c isSpaceOrBreak
  return (handle, text, c)

/-! ## Directives -/

def scanNumber (c : Cursor) : Except Failure (Nat × Cursor) :=
  match c.takeWhile Char.isDigit with
  | ([], _) => .error .badDocumentToken
  | (digits, c) => .ok (digits.foldl (fun n d => 10 * n + (d.toNat - '0'.toNat)) 0, c)

def scanDirective (fuel : Nat) (c : Cursor) : Except Failure (Directive × Cursor) := do
  let (name, c) ← scanWord c.next
  expectAt c isSpaceOrBreak
  let (directive, c) ← match name with
    | "YAML" => do
      let (major, c) ← scanNumber (c.skipWhile (· == ' '))
      expectAt c (· == some '.')
      let (minor, c) ← scanNumber c.next
      expectAt c isSpaceOrBreak
      pure (Directive.version major minor, c)
    | "TAG" => do
      let (handle, c) ← scanHandle (c.skipWhile (· == ' '))
      expectAt c (· == some ' ')
      let (stem, c) ← scanTagText fuel (c.skipWhile (· == ' '))
      expectAt c isSpaceOrBreak
      pure (Directive.handle handle stem, c)
    | _ => pure (Directive.other, c.skipWhile (!isBreak ·))
  let c := (c.skipWhile (· == ' ')).skipComment
  expectAt c fun next => next.elim true isBreak
  return (directive, c.takeBreak.2)

end SqlFragments.Yaml
