import SqlFragments.Json
import SqlFragments.Literal.Basic
import SqlFragments.Render.Compose
import SqlFragments.Value.Sum

/-!
# Rendering fragments

`evaluate` renders a fragment, a text or nothing under a context. Values become placeholders
with bindings or are written as literals, names are written by the identifier escaper, and
literal parts are composed with what stands between them. A fragment may render to another
one, which is rendered in its place; the number of such steps in a row is limited. It may also
render to something else, which has neither text nor bindings for what stands around it.

Fragments inside values that are written out are rendered under the default settings with
every value as a literal.
-/

namespace SqlFragments

open Text Number

def maxResolutionDepth : Nat := 64

def Value.expectText : Value → Outcome String
  | .text s => pure s
  | _ => .fail .wrongType

def Rendered.expect (rendered : Rendered) : Outcome Result :=
  .ofExcept rendered.toResult

/-- Writes a fragment out inside a value. A template that remembers its last such text is not
rendered again; otherwise its render is one event, so that it can be remembered. A fragment
whose own way to be written out is hidden cannot be written out. -/
def Environment.inline (env : Environment) (f : Fragment) (render : Unit → Outcome Rendered) :
    Outcome String :=
  match f with
  | .template label _ _ _ =>
    match env.remembered label with
    | .error cause => .fail cause
    | .ok (some sql) => sql.expectText
    | .ok none => do
      let outcome := render ()
      let result := (outcome.answer.bind Rendered.toResult).toOption
      let rendered ← (⟨[.inlined label outcome.trace result], outcome.answer⟩ : Outcome Rendered)
      let result ← rendered.expect
      result.sql.expectText
  | f =>
    if f.hides "to_string" || f.hides "to_sql" then .fail .wrongType
    else do
      let rendered ← render ()
      let result ← rendered.expect
      result.sql.expectText

def Value.showText (value : Value) : Outcome String :=
  .ofExcept (value.shown value.plainText)

/-- Writes a value as a literal. What has no literal of its own is written as structured
text. -/
def LiteralEscaper.write (escaper : LiteralEscaper) (env : Environment) (value timezone : Value)
    (json : Unit → Outcome Json) : Outcome Value :=
  match escaper with
  | standard =>
    match Literal.scalar? env.hostMinutes timezone value with
    | some written => do
      let s ← Outcome.ofExcept written
      pure (.text s)
    | none => do
      let tree ← json ()
      pure (.text (tree.write .tight))
  | custom _ call => call env value timezone
  | broken _ => .fail .wrongType

def Context.bind (context : Context) (env : Environment) (value : Value)
    (json : Unit → Outcome Json) : Outcome Result := do
  if context.withParameters then
    pure { sql := .text "?", bindings := [value] }
  else
    let sql ← context.escape.write env value context.timezone json
    pure { sql := sql }

def Context.parameter (context : Context) (env : Environment) (value : Value)
    (json : Unit → Outcome Json) : Outcome Result := do
  context.enter (.parameter value)
  context.bind env value json

def Value.isPlain : Value → Bool
  | .null | .fragment _ => false
  | _ => true

def Json.key : Value → Except Failure String
  | .null => .ok "null"
  | .bool b => .ok (if b then "true" else "false")
  | .int n => Literal.wholeText n
  | .float _ x => .ok (Json.floatText x)
  | .text s => .ok s
  | _ => .error .wrongType

def canJoin : Value → Except Failure Unit
  | .text _ | .bytes .fixed _ | .bytes (.changeable _) _ => .ok ()
  | _ => .error .missingAttribute

def joinWith (separator : Value) (pieces : List Value) : Except Failure Value :=
  match separator with
  | .text s =>
    match pieces.mapM Value.text? with
    | some texts => .ok (.text (String.intercalate s texts))
    | none => .error .wrongType
  | .bytes .fixed _ => if pieces.isEmpty then .ok (.bytes .fixed []) else .error .wrongType
  | .bytes (.changeable _) _ =>
    if pieces.isEmpty then .ok (.bytes (.changeable 0) []) else .error .wrongType
  | _ => .error .missingAttribute

def closingSeparator : Value → Except Failure Value
  | .text s => .ok (.text (stripEndSpaces s))
  | .bytes .fixed _ | .bytes (.changeable _) _ => .error .wrongType
  | _ => .error .missingAttribute

/-- Puts a value behind the lines so far. Lines that began with a separator that can change
are that separator, which takes the value up. -/
def extendLines (separator sql added : Value) : Outcome Value := do
  let extended ← .ofExcept (sql.plus added)
  if sql.takesUp then
    Outcome.emit (.extended separator added)
  pure extended

/-- Puts a line behind the lines so far: a separator in front of the first, and one behind
each line. A separator that can change is by then what the lines are. -/
def appendLine (separator : Value) (isLast : Bool) (sql line : Value) : Outcome Value := do
  let opened := if sql.isTruthy then sql else separator
  let extended ← extendLines separator opened line
  let following := if separator.takesUp then extended else separator
  let tail ← if isLast then .ofExcept (closingSeparator separator) else pure following
  extendLines separator extended tail

def canCount : Option Value → Except Failure Unit
  | some counted => (counted.plus (.int 1)).map fun _ => ()
  | none => .ok ()

mutual

/-- Renders a fragment that is `depth` steps down a row of fragments rendered to fragments. -/
def resolve (env : Environment) (context : Context) (depth : Nat) : Fragment → Outcome Rendered
  | .raw value => do
    context.enter (.raw value)
    match value with
    | .null => pure (.result {})
    | value =>
      let text ← plainText env value
      pure (.result { sql := .text text })
  | .identifier name => do
    context.enter (.identifier name)
    let sql ← context.escapeId.write env (.text name)
    pure (.result { sql := sql })
  | .parameter value => do
    let result ← context.parameter env value fun _ => json env value
    pure (.result result)
  | .parameterList values separator => do
    context.enter (.parameterList values separator)
    if context.withParameters then
      let sql ← Outcome.ofExcept (joinWith separator (values.map fun _ => .text "?"))
      pure (.result { sql := sql, bindings := values })
    else
      Outcome.ofExcept (canJoin separator)
      let pieces ← literalEach env context values
      let sql ← Outcome.ofExcept (joinWith separator pieces)
      pure (.result { sql := sql })
  | .columnList columns separator => do
    context.enter (.columnList columns separator)
    Outcome.ofExcept (canJoin separator)
    let pieces ← columns.mapM (context.escapeId.write env)
    let sql ← Outcome.ofExcept (joinWith separator pieces)
    pure (.result { sql := sql })
  | .lines members separator => do
    context.enter (.lines members separator)
    let result ← linesFrom env context separator (.text "") [] members
    pure (.result result)
  | .clause strings value => do
    context.enter (.clause strings value)
    let rendered ← evaluate env context value
    let inner ← rendered.expect
    if inner.sql.isTruthy then
      let result ← Outcome.ofExcept (compose strings [.ok inner] context)
      pure (.result result)
    else
      pure (.result { bindings := inner.bindings })
  | .template label form strings values => do
    context.enter (.template label form strings values)
    let rendered ← promotedEach env context values
    let result ← Outcome.ofExcept (compose strings (rendered.map Rendered.toResult) context)
    pure (.result result)
  | .leaf label form text bindings assigned => do
    context.enter (.leaf label form text bindings assigned)
    if form = .counting then
      Outcome.ofExcept (canCount (assigned.lookup "renders"))
    Outcome.emit (.leafRendered label)
    pure (.result { sql := text, bindings := bindings })
  | .probe label assigned => do
    context.enter (.probe label assigned)
    pure (.result {
      sql := .text "probe"
      bindings := [.bool context.withParameters, context.timezone, .bool context.preparing,
        context.method] })
  | .deferred label target assigned => do
    context.enter (.deferred label target assigned)
    match target with
    | .fragment f =>
      if depth ≥ maxResolutionDepth then .fail (.resolutionTooDeep maxResolutionDepth)
      else resolve env context (depth + 1) f
    | other => pure (.other other)
  | .endless label assigned => do
    context.enter (.endless label assigned)
    let again := context.announcement (Fragment.endless label assigned).kindName
    ⟨List.replicate (maxResolutionDepth - depth) again,
      .error (.resolutionTooDeep maxResolutionDepth)⟩
  | .unrenderable label kind assigned => do
    context.enter (.unrenderable label kind assigned)
    pure (.result {})
termination_by structural f => f

/-- Renders a fragment, a text or nothing. -/
def evaluate (env : Environment) (context : Context) : Value → Outcome Rendered
  | .null => pure (.result { sql := .text "NULL" })
  | .text s =>
    if context.withParameters then
      pure (.result { sql := .text "?", bindings := [.text s] })
    else if context.escape.isCallable then do
      let result ← context.bind env (.text s) fun _ => pure (.text s)
      pure (.result result)
    else .fail .literalEscaperExpected
  | .fragment f => resolve env context 0 f
  | other => .fail (.showing .notRenderable other)
termination_by structural v => v

/-- Renders the values between literal parts in order. A plain value is bound as if it were a
parameter. -/
def promotedEach (env : Environment) (context : Context) : List Value → Outcome (List Rendered)
  | [] => pure []
  | value :: rest => do
    let rendered ← if value.isPlain then do
        let result ← context.parameter env value fun _ => json env value
        pure (.result result)
      else evaluate env context value
    let others ← promotedEach env context rest
    pure (rendered :: others)
termination_by structural vs => vs

/-- Renders the members of lines in order behind the lines so far. A member that renders
empty adds no line, but its bindings stay. -/
def linesFrom (env : Environment) (context : Context) (separator sql : Value)
    (bindings : List Value) : List Value → Outcome Result
  | [] => pure { sql := sql, bindings := bindings }
  | member :: rest => do
    let rendered ← evaluate env context member
    let result ← rendered.expect
    let sql ← if result.sql.isTruthy then
        appendLine separator rest.isEmpty sql result.sql
      else pure sql
    linesFrom env context separator sql (bindings ++ result.bindings) rest
termination_by structural vs => vs

def literalEach (env : Environment) (context : Context) : List Value → Outcome (List Value)
  | [] => pure []
  | value :: rest => do
    let literal ← context.escape.write env value context.timezone fun _ => json env value
    let literals ← literalEach env context rest
    pure (literal :: literals)
termination_by structural vs => vs

/-- A value as structured text; what has no place there is written as its plain text. -/
def json (env : Environment) : Value → Outcome Json
  | .null => pure .null
  | .bool b => pure (.bool b)
  | .int n => do
    let whole ← Outcome.ofExcept (Whole.ofInt n)
    pure (.int whole)
  | .float _ x => pure (.float x)
  | .text s => pure (.text s)
  | .list _ items => do
    let trees ← jsonEach env items
    pure (.array trees)
  | .tuple items => do
    let trees ← jsonEach env items
    pure (.array trees)
  | .dict _ entries => do
    let members ← jsonEntries env entries
    pure (.object members)
  | .fragment f => do
    let text ← env.inline f fun _ => resolve env .inlined 0 f
    pure (.text text)
  | other => do
    let text ← other.showText
    pure (.text text)
termination_by structural v => v

def jsonEach (env : Environment) : List Value → Outcome (List Json)
  | [] => pure []
  | value :: rest => do
    let tree ← json env value
    let trees ← jsonEach env rest
    pure (tree :: trees)
termination_by structural vs => vs

def jsonEntries (env : Environment) : List (Value × Value) → Outcome (List (String × Json))
  | [] => pure []
  | (key, value) :: rest => do
    let name ← Outcome.ofExcept (Json.key key)
    let tree ← json env value
    let members ← jsonEntries env rest
    pure ((name, tree) :: members)
termination_by structural entries => entries

def plainText (env : Environment) : Value → Outcome String
  | .fragment f => env.inline f fun _ => resolve env .inlined 0 f
  | other => other.showText
termination_by structural v => v

end

def literal (env : Environment) (value timezone : Value) : Outcome Value :=
  LiteralEscaper.standard.write env value timezone fun _ => json env value

end SqlFragments
