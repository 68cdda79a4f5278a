import SqlFragments.Proofs.Outcome
import SqlFragments.Render.Evaluate

/-!
# Steps of a render

The parts of a render that depend on what they are given have names here, and the render of each
fragment is written out as its parts in order.
-/

namespace SqlFragments

open Outcome

variable {env : Environment} {context : Context}

def verbatimText (env : Environment) : Value → Outcome String
  | .null => pure ""
  | value => plainText env value

def promote (env : Environment) (context : Context) (value : Value) : Outcome Rendered :=
  if value.isPlain then do
    let result ← context.parameter env value fun _ => json env value
    pure (.result result)
  else evaluate env context value

def lengthen (separator : Value) (isLast : Bool) (sql line : Value) : Outcome Value :=
  if line.isTruthy then appendLine separator isLast sql line else pure sql

def renderList (env : Environment) (context : Context) (separator : Value) (values : List Value) :
    Outcome Result :=
  if context.withParameters then do
    let sql ← Outcome.ofExcept (joinWith separator (values.map fun _ => .text "?"))
    pure { sql := sql, bindings := values }
  else do
    Outcome.ofExcept (canJoin separator)
    let pieces ← literalEach env context values
    let sql ← Outcome.ofExcept (joinWith separator pieces)
    pure { sql := sql }

/-- A clause around a value that was rendered: its wording is left out around no text. -/
def surround (context : Context) (strings : List Value) (inner : Result) : Except Failure Result :=
  if inner.sql.isTruthy then compose strings [.ok inner] context
  else .ok { bindings := inner.bindings }

def LeafForm.canRender (form : LeafForm) (assigned : List (String × Value)) :
    Except Failure Unit :=
  if form = .counting then canCount (assigned.lookup "renders") else .ok ()

def follow (env : Environment) (context : Context) (depth : Nat) : Value → Outcome Rendered
  | .fragment f =>
    if depth ≥ maxResolutionDepth then .fail (.resolutionTooDeep maxResolutionDepth)
    else resolve env context (depth + 1) f
  | other => pure (.other other)

theorem Rendered.expect_eq_ok {rendered : Rendered} {result : Result} :
    rendered.expect.answer = .ok result ↔ rendered = .result result := by
  cases rendered with
  | result r =>
    show Except.ok r = _ ↔ _
    simp
  | other value =>
    constructor <;> intro h <;> cases h

@[simp]
theorem answer_enter (f : Fragment) : (context.enter f).answer = context.allow f := by
  simp only [Context.enter, answer_bind, answer_ofExcept, answer_emit]
  cases context.allow f <;> rfl

theorem enter_of_ok {f : Fragment} (h : context.allow f = .ok ()) :
    context.enter f = Outcome.emit (context.announcement f.kindName) := by
  rw [Context.enter, h]
  rfl

theorem enter_of_error {f : Fragment} {cause : Failure} (h : context.allow f = .error cause) :
    context.enter f = .fail cause := by
  rw [Context.enter, h]
  rfl

theorem matching_enter {context context' : Context} {f g : Fragment}
    (h : context.allow f = context'.allow g) : Matching Eq (context.enter f) (context'.enter g) :=
  .of_answer_eq (by rw [answer_enter, answer_enter, h])

theorem resolve_raw (depth : Nat) (value : Value) :
    resolve env context depth (.raw value) = (do
      context.enter (.raw value)
      let text ← verbatimText env value
      pure (.result { sql := .text text })) := by
  cases value with
  | null => simp [resolve, verbatimText]
  | _ => rfl

theorem resolve_parameterList (depth : Nat) (values : List Value) (separator : Value) :
    resolve env context depth (.parameterList values separator) = (do
      context.enter (.parameterList values separator)
      let result ← renderList env context separator values
      pure (.result result)) := by
  rw [resolve, renderList]
  congr 1
  funext _
  split <;> simp only [bind_assoc, pure_bind]

theorem resolve_clause (depth : Nat) (strings : List Value) (value : Value) :
    resolve env context depth (.clause strings value) = (do
      context.enter (.clause strings value)
      let rendered ← evaluate env context value
      let inner ← rendered.expect
      let result ← Outcome.ofExcept (surround context strings inner)
      pure (.result result)) := by
  rw [resolve]
  congr 1
  funext _
  congr 1
  funext rendered
  congr 1
  funext inner
  unfold surround
  split <;> rfl

theorem resolve_leaf (depth : Nat) (label : Label) (form : LeafForm) (text : Value)
    (bindings : List Value) (assigned : List (String × Value)) :
    resolve env context depth (.leaf label form text bindings assigned) = (do
      context.enter (.leaf label form text bindings assigned)
      Outcome.ofExcept (form.canRender assigned)
      Outcome.emit (.leafRendered label)
      pure (.result { sql := text, bindings := bindings })) := by
  rw [resolve]
  congr 1
  funext _
  unfold LeafForm.canRender
  split <;> rfl

theorem resolve_deferred (depth : Nat) (label : Label) (target : Value)
    (assigned : List (String × Value)) :
    resolve env context depth (.deferred label target assigned) = (do
      context.enter (.deferred label target assigned)
      follow env context depth target) := by
  cases target with
  | fragment f => simp [resolve, follow]
  | _ => rfl

theorem literalEach_eq_mapM (values : List Value) :
    literalEach env context values = values.mapM fun value =>
      context.escape.write env value context.timezone fun _ => json env value := by
  induction values with
  | nil => rfl
  | cons value rest ih => rw [literalEach, ih, List.mapM_cons]

theorem promotedEach_cons (value : Value) (rest : List Value) :
    promotedEach env context (value :: rest) = (do
      let rendered ← promote env context value
      let others ← promotedEach env context rest
      pure (rendered :: others)) := by
  rw [promotedEach, promote]
  split <;> simp only [bind_assoc, pure_bind]

theorem linesFrom_cons (separator sql : Value) (bindings : List Value) (member : Value)
    (rest : List Value) :
    linesFrom env context separator sql bindings (member :: rest) = (do
      let rendered ← evaluate env context member
      let result ← rendered.expect
      let sql ← lengthen separator rest.isEmpty sql result.sql
      linesFrom env context separator sql (bindings ++ result.bindings) rest) := by
  rw [linesFrom]
  congr 1
  funext rendered
  congr 1
  funext result
  unfold lengthen
  split <;> simp only [pure_bind]

end SqlFragments
