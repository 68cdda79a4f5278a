import SqlFragments.Render.Context
import SqlFragments.Text.Blank
import SqlFragments.Text.Indent
import SqlFragments.Value.Equality

/-!
# Composing statements

The literal parts of a statement lose their common indentation, rendered values go between
them, and the whole is trimmed. Bindings follow in the order of the values.
-/

namespace SqlFragments

open Text

def dedentPart (indent : List Char) : Value → Except Failure Value
  | .text s => .ok (.text (String.ofList (dedentLines indent s.toList)))
  | .bytes .fixed _ | .bytes (.changeable _) _ => .error .wrongType
  | _ => .error .missingAttribute

/-- Takes the common indentation away from literal parts. The first must be a text; the
others are only looked at when there is an indentation. -/
def dedentParts : List Value → Except Failure (List Value)
  | [] => .error .indexOutOfRange
  | .text first :: rest =>
    match indentation first.toList with
    | [] => .ok (.text (String.ofList (dropBlankLines first.toList)) :: rest)
    | indent => (.text first :: rest).mapM (dedentPart indent)
  | _ :: _ => .error .wrongType

/-- Takes the common indentation away from whatever holds literal parts: a list or tuple, the
characters of a text, or a dictionary, whose entry at zero says the indentation that its keys
lose. -/
def dedentAny : Value → Except Failure (List Value)
  | .list _ parts | .tuple parts => dedentParts parts
  | .text s => dedentParts (s.toList.map fun c => .text (String.singleton c))
  | .dict _ entries =>
    match entries.find? fun entry => entry.1.numericallyEqual (.int 0) with
    | none => .error .missingKey
    | some (_, .text first) =>
      match indentation first.toList with
      | [] => .error .wrongType
      | indent => entries.mapM fun entry => dedentPart indent entry.1
    | some _ => .error .wrongType
  | .bytes _ [] => .error .indexOutOfRange
  | _ => .error .wrongType

/-- Puts rendered texts and the literal parts that follow them behind a text. A result that is
missing only matters when its turn comes. -/
def interleave (sql : String) :
    List (Except Failure Result) → List Value → Except Failure String
  | [], _ => .ok sql
  | .error cause :: _, _ => .error cause
  | .ok _ :: _, [] => .error .indexOutOfRange
  | .ok result :: results, part :: parts =>
    match result.sql, part with
    | .text a, .text b => interleave (sql ++ (a ++ b)) results parts
    | _, _ => .error .wrongType

def boundValues (results : List (Except Failure Result)) : List Value :=
  results.flatMap fun
    | .ok result => result.bindings
    | .error _ => []

def Context.tag (context : Context) : Value :=
  if context.method.isTruthy then context.method else .text "unknown"

/-- Interleaves the dedented literal parts with rendered values and trims the text. -/
def compose (strings : List Value) (results : List (Except Failure Result)) (context : Context) :
    Except Failure Result := do
  match ← dedentParts strings with
  | .text first :: rest =>
    let sql ← interleave first results rest
    return {
      sql := .text (strip sql)
      bindings := boundValues results
      method := context.tag }
  | _ => .error .wrongType

theorem dedentParts_text (first : String) (rest : List String) :
    dedentParts ((first :: rest).map .text) =
      .ok ((dedent ((first :: rest).map String.toList)).map
        fun cs => .text (String.ofList cs)) := by
  have hparts : ∀ (indent : List Char) (parts : List String),
      (parts.map Value.text).mapM (dedentPart indent) =
        .ok (parts.map fun s => .text (String.ofList (dedentLines indent s.toList))) := by
    intro indent parts
    induction parts with
    | nil => rfl
    | cons s parts ih =>
      rw [List.map_cons, List.mapM_cons, ih]
      rfl
  have hmap := hparts (indentation first.toList) (first :: rest)
  simp only [List.map_cons] at hmap
  simp only [List.map_cons, dedentParts, dedent]
  cases hi : indentation first.toList with
  | nil => simp [Function.comp_def]
  | cons c cs =>
    rw [hi] at hmap
    simp [hmap, Function.comp_def]

end SqlFragments
