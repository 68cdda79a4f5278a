import SqlFragments.Failure
import SqlFragments.Value.Change

/-!
# Outcomes

Rendering answers with a result or a failure, and on the way things happen that others may
watch: fragments are visited, escapers are called, templates are written out inside values.
An outcome is the trace of what happened, up to a failure where there is one, together with
the answer.
-/

namespace SqlFragments

/-- A rendered statement: its text, the values bound to its placeholders, the method it is
tagged with, and named extras, which no fragment of the library adds. -/
structure Result where
  sql : Value := .text ""
  bindings : List Value := []
  method : Value := .text "unknown"
  hooks : List (String × Value) := []

def Result.apply (change : Change) (result : Result) : Result where
  sql := result.sql.apply change
  bindings := result.bindings.map (·.apply change)
  method := result.method.apply change
  hooks := result.hooks.map fun (name, v) => (name, v.apply change)

/-- What a render gives: a result, or another thing that a fragment of the user answered with. -/
inductive Rendered
  | result (result : Result)
  | other (value : Value)

/-- The result of a render. Other things have neither text nor bindings. -/
def Rendered.toResult : Rendered → Except Failure Result
  | result r => .ok r
  | other _ => .error .missingAttribute

def Rendered.apply (change : Change) : Rendered → Rendered
  | result r => result (r.apply change)
  | other v => other (v.apply change)

inductive Event
  /-- A fragment is about to be rendered, under these settings. -/
  | rendering (kindName : String) (withParameters : Bool) (timezone method : Value)
  /-- A recording literal escaper was called. -/
  | literalEscaped (value timezone : Value)
  /-- A recording identifier escaper was called. -/
  | identifierEscaped (name : Value)
  /-- A fragment of the user that counts its renders was rendered. -/
  | leafRendered (label : Label)
  /-- A separator that can change took up what was put behind it. -/
  | extended (separator added : Value)
  /-- A template stood inside a value and was written out, with the trace of that render and
  its result if it did not fail. -/
  | inlined (label : Label) (trace : List Event) (result : Option Result)

def Event.apply (change : Change) : Event → Event
  | literalEscaped value timezone => literalEscaped (value.apply change) (timezone.apply change)
  | identifierEscaped name => identifierEscaped (name.apply change)
  | other => other

structure Outcome (α : Type) where
  trace : List Event
  answer : Except Failure α

namespace Outcome

variable {α β : Type}

def ofExcept (answer : Except Failure α) : Outcome α := ⟨[], answer⟩

def fail (cause : Failure) : Outcome α := ofExcept (.error cause)

def emit (event : Event) : Outcome Unit := ⟨[event], .ok ()⟩

def bind (first : Outcome α) (next : α → Outcome β) : Outcome β :=
  match first.answer with
  | .error cause => ⟨first.trace, .error cause⟩
  | .ok a => ⟨first.trace ++ (next a).trace, (next a).answer⟩

instance : Monad Outcome where
  pure a := ofExcept (.ok a)
  bind := bind

@[simp]
theorem trace_pure (a : α) : (pure a : Outcome α).trace = [] := rfl

@[simp]
theorem answer_pure (a : α) : (pure a : Outcome α).answer = .ok a := rfl

@[simp]
theorem answer_bind (x : Outcome α) (f : α → Outcome β) :
    (x >>= f).answer = x.answer >>= fun a => (f a).answer := by
  show (bind x f).answer = _
  unfold bind
  cases h : x.answer <;> rfl

theorem answer_bind_eq_ok {x : Outcome α} {f : α → Outcome β} {b : β} :
    (x >>= f).answer = .ok b ↔ ∃ a, x.answer = .ok a ∧ (f a).answer = .ok b := by
  rw [answer_bind]
  cases h : x.answer with
  | error cause =>
    constructor
    · intro hb
      cases hb
    · rintro ⟨a, ha, _⟩
      cases ha
  | ok a =>
    constructor
    · intro hb
      exact ⟨a, rfl, hb⟩
    · rintro ⟨a', ha, hb⟩
      cases ha
      exact hb

theorem trace_bind_ok (x : Outcome α) (f : α → Outcome β) (a : α) (h : x.answer = .ok a) :
    (x >>= f).trace = x.trace ++ (f a).trace := by
  show (bind x f).trace = _
  simp [bind, h]

theorem trace_bind_error (x : Outcome α) (f : α → Outcome β) (cause : Failure)
    (h : x.answer = .error cause) : (x >>= f).trace = x.trace := by
  show (bind x f).trace = _
  simp [bind, h]

instance : LawfulMonad Outcome := LawfulMonad.mk' Outcome
  (by
    intro α x
    obtain ⟨trace, answer⟩ := x
    show bind _ _ = _
    cases answer <;> simp [bind, ofExcept])
  (by
    intro α β a f
    show bind _ _ = _
    simp [bind])
  (by
    intro α β γ x f g
    show bind (bind x f) g = bind x fun a => bind (f a) g
    obtain ⟨trace, answer⟩ := x
    cases answer with
    | error cause => simp [bind]
    | ok a =>
      simp only [bind]
      cases (f a).answer <;> simp)

end Outcome

end SqlFragments
