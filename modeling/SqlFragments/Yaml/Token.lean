import SqlFragments.Yaml.Block
import SqlFragments.Yaml.Plain
import SqlFragments.Yaml.Property
import SqlFragments.Yaml.Quoted

/-!
# Tokens of configuration documents

The tokens of block and flow collections, of scalars, and of what stands in front of nodes and
documents. Indentation opens and closes block collections. A node in one line that is followed
by a colon turns out to be a key, so a token for that key, and perhaps one that opens a block
mapping, is put in front of it afterwards. Until that is clear the tokens from it on are not
passed on.
-/

namespace SqlFragments.Yaml

inductive Token
  | directive (directive : Directive)
  | documentStart
  | documentEnd
  | blockSequenceStart
  | blockMappingStart
  | blockEnd
  | flowSequenceStart
  | flowSequenceEnd
  | flowMappingStart
  | flowMappingEnd
  | blockEntry
  | flowEntry
  | key
  | value
  | alias (name : String)
  | anchor (name : String)
  | tag (handle : Option String) (text : String)
  | scalar (text : String) (plain : Bool)
  | finish
deriving DecidableEq, Repr

/-! ## Rows of tokens -/

/-- A token that may turn out to be a key: its number, where it stands, and whether it must be
one because it starts a line of a block mapping. -/
structure Candidate where
  number : Nat
  required : Bool
  index : Nat
  line : Nat
  column : Nat

/-- The state between two tokens. No scan inside of a token takes more than `bound` steps.
Indentations are kept from the inside out, with -1 outside of all; candidates by the depth of
flow collections at which they stand. -/
structure Lexer where
  cursor : Cursor
  bound : Nat
  tokens : Array Token := #[]
  flowDepth : Int := 0
  indents : List Int := [-1]
  keyAllowed : Bool := true
  candidates : List (Int × Candidate) := []

namespace Lexer

def indent (s : Lexer) : Int := s.indents.headD (-1)

def push (s : Lexer) (t : Token) : Lexer := { s with tokens := s.tokens.push t }

def allowKey (s : Lexer) (allowed : Bool) : Lexer := { s with keyAllowed := allowed }

def skip (s : Lexer) (n : Nat) : Lexer := { s with cursor := s.cursor.skip n }

/-- Past spaces, comments and line breaks. Outside of flow collections a key may start on a
new line. -/
def toNextToken : Nat → Lexer → Lexer
  | 0, s => s
  | fuel + 1, s =>
    let c := (s.cursor.skipWhile (· == ' ')).skipComment
    match c.rest with
    | ch :: _ =>
      if isBreak ch then
        toNextToken fuel
          { s with cursor := c.next, keyAllowed := s.keyAllowed || s.flowDepth == 0 }
      else { s with cursor := c }
    | [] => { s with cursor := c }

def isStale (s : Lexer) (candidate : Candidate) : Bool :=
  candidate.line != s.cursor.line || s.cursor.index - candidate.index > 1024

def dropStale (s : Lexer) : Except Failure Lexer :=
  if s.candidates.any fun entry => s.isStale entry.2 && entry.2.required then
    .error .badDocumentToken
  else .ok { s with candidates := s.candidates.filter fun entry => !s.isStale entry.2 }

def dropCandidate (s : Lexer) : Except Failure Lexer :=
  match s.candidates.lookup s.flowDepth with
  | some candidate =>
    if candidate.required then .error .badDocumentToken
    else .ok { s with candidates := s.candidates.filter (·.1 != s.flowDepth) }
  | none => .ok s

def noteCandidate (s : Lexer) : Except Failure Lexer :=
  if s.keyAllowed then do
    let required := s.flowDepth == 0 && s.indent == s.cursor.column
    let s ← s.dropCandidate
    let candidate : Candidate :=
      ⟨s.tokens.size, required, s.cursor.index, s.cursor.line, s.cursor.column⟩
    return { s with candidates := (s.flowDepth, candidate) :: s.candidates }
  else .ok s

def closeBlocks (s : Lexer) (column : Int) : Lexer :=
  if s.flowDepth != 0 then s
  else
    let closed := s.indents.takeWhile (column < ·)
    { s with
      indents := s.indents.drop closed.length
      tokens := closed.foldl (fun tokens _ => tokens.push .blockEnd) s.tokens }

def openIndent (s : Lexer) (column : Int) : Lexer × Bool :=
  if s.indent < column then ({ s with indents := column :: s.indents }, true) else (s, false)

def openFlow (s : Lexer) (t : Token) : Except Failure Lexer := do
  let s ← s.noteCandidate
  let s := { s with flowDepth := s.flowDepth + 1, keyAllowed := true }
  return (s.skip 1).push t

def closeFlow (s : Lexer) (t : Token) : Except Failure Lexer := do
  let s ← s.dropCandidate
  let s := { s with flowDepth := s.flowDepth - 1, keyAllowed := false }
  return (s.skip 1).push t

def blockEntry (s : Lexer) : Except Failure Lexer := do
  let s ← if s.flowDepth == 0 then
      if s.keyAllowed then
        let (s, opened) := s.openIndent s.cursor.column
        Except.ok (if opened then s.push .blockSequenceStart else s)
      else .error .badDocumentToken
    else .ok s
  let s ← (s.allowKey true).dropCandidate
  return (s.skip 1).push .blockEntry

def explicitKey (s : Lexer) : Except Failure Lexer := do
  let s ← if s.flowDepth == 0 then
      if s.keyAllowed then
        let (s, opened) := s.openIndent s.cursor.column
        Except.ok (if opened then s.push .blockMappingStart else s)
      else .error .badDocumentToken
    else .ok s
  let s ← (s.allowKey (s.flowDepth == 0)).dropCandidate
  return (s.skip 1).push .key

def insertAt (s : Lexer) (number : Nat) (ts : List Token) : Lexer :=
  { s with
    tokens := s.tokens.extract 0 number ++ ts.toArray ++ s.tokens.extract number s.tokens.size }

/-- The colon of a value. The candidate of the present depth turns out to be its key. -/
def valueMark (s : Lexer) : Except Failure Lexer := do
  let s ← match s.candidates.lookup s.flowDepth with
    | some candidate =>
      let s : Lexer := { s with candidates := s.candidates.filter (·.1 != s.flowDepth) }
      if s.flowDepth == 0 then
        let (s, opened) := s.openIndent candidate.column
        Except.ok ((s.allowKey false).insertAt candidate.number
          (if opened then [.blockMappingStart, .key] else [.key]))
      else .ok ((s.allowKey false).insertAt candidate.number [.key])
    | none =>
      if s.flowDepth == 0 then
        if s.keyAllowed then
          let (s, opened) := s.openIndent s.cursor.column
          let s := if opened then s.push .blockMappingStart else s
          (s.allowKey true).dropCandidate
        else .error .badDocumentToken
      else (s.allowKey false).dropCandidate
  return (s.skip 1).push .value

def documentMark (s : Lexer) (t : Token) : Except Failure Lexer := do
  let s ← (s.closeBlocks (-1)).dropCandidate
  return ((s.allowKey false).skip 3).push t

def directive (s : Lexer) : Except Failure Lexer := do
  let s ← (s.closeBlocks (-1)).dropCandidate
  let (directive, c) ← scanDirective s.bound s.cursor
  return { s.allowKey false with cursor := c }.push (.directive directive)

def name (s : Lexer) (t : String → Token) : Except Failure Lexer := do
  let s ← s.noteCandidate
  let (name, c) ← scanName s.cursor
  return { s.allowKey false with cursor := c }.push (t name)

def tag (s : Lexer) : Except Failure Lexer := do
  let s ← s.noteCandidate
  let (handle, text, c) ← scanTag s.bound s.cursor
  return { s.allowKey false with cursor := c }.push (.tag handle text)

def blockScalar (s : Lexer) (folds : Bool) : Except Failure Lexer := do
  let s ← (s.allowKey true).dropCandidate
  let (text, c) ← scanBlock folds s.indent s.bound s.cursor
  return { s with cursor := c }.push (.scalar (String.ofList text) false)

def quotedScalar (s : Lexer) (mark : Char) : Except Failure Lexer := do
  let s ← s.noteCandidate
  let (text, c) ← scanQuoted mark s.bound s.cursor.next []
  return { s.allowKey false with cursor := c }.push (.scalar (String.ofList text) false)

def plainScalar (s : Lexer) : Except Failure Lexer := do
  let s ← s.noteCandidate
  let (text, ended, c) := scanPlain (s.flowDepth != 0) (s.indent + 1) s.bound s.cursor [] [] false
  return { s.allowKey ended with cursor := c }.push (.scalar (String.ofList text) true)

def step (s : Lexer) : Except Failure (Lexer × Bool) := do
  let s := toNextToken s.bound s
  let s ← s.dropStale
  let s := s.closeBlocks s.cursor.column
  let inFlow := s.flowDepth != 0
  match s.cursor.rest with
  | [] =>
    let s ← (s.closeBlocks (-1)).dropCandidate
    let s := { s with keyAllowed := false, candidates := [] }
    return (s.push .finish, true)
  | ch :: rest =>
    let next := rest.head?
    let more (e : Except Failure Lexer) : Except Failure (Lexer × Bool) := e.map (·, false)
    if s.cursor.column = 0 ∧ ch = '%' then more s.directive
    else if s.cursor.column = 0 ∧ s.cursor.atMark "---" then more (s.documentMark .documentStart)
    else if s.cursor.column = 0 ∧ s.cursor.atMark "..." then more (s.documentMark .documentEnd)
    else if ch = '[' then more (s.openFlow .flowSequenceStart)
    else if ch = '\x7b' then more (s.openFlow .flowMappingStart)
    else if ch = ']' then more (s.closeFlow .flowSequenceEnd)
    else if ch = '\x7d' then more (s.closeFlow .flowMappingEnd)
    else if ch = ',' then
      more do
        let s ← (s.allowKey true).dropCandidate
        return (s.skip 1).push .flowEntry
    else if ch = '-' ∧ isSeparator next then more s.blockEntry
    else if ch = '?' ∧ (inFlow ∨ isSeparator next) then more s.explicitKey
    else if ch = ':' ∧ (inFlow ∨ isSeparator next) then more s.valueMark
    else if ch = '*' then more (s.name .alias)
    else if ch = '&' then more (s.name .anchor)
    else if ch = '!' then more s.tag
    else if (ch = '|' ∨ ch = '>') ∧ ¬ inFlow then more (s.blockScalar (ch == '>'))
    else if ch = '\'' ∨ ch = '"' then more (s.quotedScalar ch)
    else if startsPlain inFlow ch next then more s.plainScalar
    else .error .badDocumentToken

/-- The tokens that may be passed on: those in front of the first candidate that is not ruled
out. -/
def settled (s : Lexer) : List Token :=
  let pending := s.candidates.filter fun entry => !s.isStale entry.2 || entry.2.required
  let limit := pending.foldl (fun n entry => min n entry.2.number) s.tokens.size
  (s.tokens.extract 0 limit).toList

def run : Nat → Lexer → List Token × Option Failure
  | 0, s => (s.settled, some .badDocumentToken)
  | fuel + 1, s =>
    match s.step with
    | .ok (s, true) => (s.tokens.toList, none)
    | .ok (s, false) => run fuel s
    | .error cause => (s.settled, some cause)

end Lexer

def tokensOf (text : List Char) : List Token × Option Failure :=
  let text := match text with
    | '\uFEFF' :: rest => rest
    | _ => text
  Lexer.run (2 * text.length + 2) { cursor := { rest := text }, bound := text.length + 1 }

end SqlFragments.Yaml
