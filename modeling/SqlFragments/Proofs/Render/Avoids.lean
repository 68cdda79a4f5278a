import SqlFragments.Proofs.Journal.Format
import SqlFragments.Render.Options

/-!
# Renders that avoid a template

What a template remembers is asked for, or changed, only where the template is written out as
text. Where it is rendered between the parts of another template, as a line or in a clause, its
memory does not matter: the render is the same whatever the template remembers, and remembers
nothing for it.
-/

namespace SqlFragments

/-! ## Things without a template -/

def Fragment.template? : Fragment → Option Label
  | .template label _ _ _ => some label
  | _ => none

mutual

/-- A fragment avoids a template when rendering it does not write that template out. It may render
it. Its separators do not change when something is put behind them. -/
def Fragment.Avoids (hidden : Label) : Fragment → Prop
  | .raw value => Value.Avoids hidden true value
  | .parameter value => Value.Avoids hidden true value
  | .parameterList values _ => Value.AvoidsEach hidden true values
  | .columnList columns _ => Value.AvoidsEach hidden true columns
  | .lines members separator =>
    separator.takesUp = false ∧ Value.AvoidsEach hidden false members
  | .clause _ value => Value.Avoids hidden false value
  | .template _ _ _ values => Value.AvoidsEach hidden false values
  | .deferred _ target _ => Value.Avoids hidden false target
  | _ => True
termination_by structural f => f

/-- The same of a value that is rendered or `written` out; what stands in a list is always written
out. -/
def Value.Avoids (hidden : Label) (written : Bool) : Value → Prop
  | .list _ items => Value.AvoidsEach hidden true items
  | .tuple items => Value.AvoidsEach hidden true items
  | .dict _ entries => Value.AvoidsEntries hidden entries
  | .fragment f => (written = true → f.template? ≠ some hidden) ∧ Fragment.Avoids hidden f
  | _ => True
termination_by structural v => v

def Value.AvoidsEach (hidden : Label) (written : Bool) : List Value → Prop
  | [] => True
  | value :: rest => Value.Avoids hidden written value ∧ Value.AvoidsEach hidden written rest
termination_by structural vs => vs

def Value.AvoidsEntries (hidden : Label) : List (Value × Value) → Prop
  | [] => True
  | (_, value) :: rest => Value.Avoids hidden true value ∧ Value.AvoidsEntries hidden rest
termination_by structural entries => entries

end

inductive Event.Avoids (hidden : Label) : Event → Prop
  | rendering (kindName : String) (withParameters : Bool) {timezone method : Value}
    (htimezone : timezone.Avoids hidden true) (hmethod : method.Avoids hidden true) :
    Event.Avoids hidden (.rendering kindName withParameters timezone method)
  | literalEscaped (value timezone : Value) : Event.Avoids hidden (.literalEscaped value timezone)
  | identifierEscaped (name : Value) : Event.Avoids hidden (.identifierEscaped name)
  | leafRendered (label : Label) : Event.Avoids hidden (.leafRendered label)
  | inlined {label : Label} {trace : List Event} (hlabel : label ≠ hidden)
    (htrace : ∀ event ∈ trace, Event.Avoids hidden event) (result : Option Result) :
    Event.Avoids hidden (.inlined label trace result)

structure Environment.AgreesOutside (hidden : Label) (env env' : Environment) : Prop where
  hostMinutes : env'.hostMinutes = env.hostMinutes
  remembered : ∀ label, label ≠ hidden → env'.remembered label = env.remembered label

/-- An outcome that is the same in both environments, of events that avoid a template. -/
structure Outcome.Untouched (hidden : Label) {α : Type} (x y : Outcome α) : Prop where
  eq : y = x
  trace : ∀ event ∈ x.trace, event.Avoids hidden

def LiteralEscaper.Avoids (hidden : Label) : LiteralEscaper → Prop
  | custom _ write => ∀ env env' value timezone, env.AgreesOutside hidden env' →
    value.Avoids hidden true → timezone.Avoids hidden true →
    Outcome.Untouched hidden (write env value timezone) (write env' value timezone)
  | _ => True

def IdentifierEscaper.Avoids (hidden : Label) : IdentifierEscaper → Prop
  | custom _ write => ∀ env env' name, env.AgreesOutside hidden env' → name.Avoids hidden true →
    Outcome.Untouched hidden (write env name) (write env' name)
  | _ => True

/-- A context in which a template does not stand, and whose functions do not write it out. -/
structure Context.Avoids (hidden : Label) (context : Context) : Prop where
  escape : context.escape.Avoids hidden
  escapeId : context.escapeId.Avoids hidden
  timezone : context.timezone.Avoids hidden true
  method : context.method.Avoids hidden true

variable {hidden : Label} {env env' : Environment} {context : Context}

theorem Value.avoids_of_mem {written : Bool} {values : List Value}
    (h : Value.AvoidsEach hidden written values) : ∀ value ∈ values, value.Avoids hidden written := by
  induction values with
  | nil => exact fun _ hvalue => by cases hvalue
  | cons first rest ih =>
    rw [List.forall_mem_cons]
    exact ⟨h.1, ih h.2⟩

private theorem avoids_of_mem_entries {entries : List (Value × Value)}
    (h : Value.AvoidsEntries hidden entries) : ∀ entry ∈ entries, entry.2.Avoids hidden true := by
  induction entries with
  | nil => exact fun _ hentry => by cases hentry
  | cons first rest ih =>
    rw [List.forall_mem_cons]
    exact ⟨h.1, ih h.2⟩

theorem Value.avoids_promoted {values : List Value} (h : Value.AvoidsEach hidden false values) :
    ∀ value ∈ values,
      if value.isPlain then value.Avoids hidden true else value.Avoids hidden false := by
  intro value hmem
  have hvalue := Value.avoids_of_mem h value hmem
  split
  · next hplain =>
    cases value with
    | null | fragment => cases hplain
    | _ => exact hvalue
  · exact hvalue

private theorem parts_avoids (hidden : Label) :
    Parts (Value.Avoids hidden false) (Value.Avoids hidden true) where
  null := trivial
  bool _ := trivial
  text _ := trivial
  list h := Value.avoids_of_mem h
  tuple h := Value.avoids_of_mem h
  dict h := avoids_of_mem_entries h
  written h := ⟨nofun, h.2⟩
  raw h := h.2
  parameter h := h.2
  parameterList h := Value.avoids_of_mem h.2
  columnList h := Value.avoids_of_mem h.2
  lines h := ⟨h.2.1, Value.avoids_of_mem h.2.2⟩
  clause h := h.2
  template h := Value.avoids_promoted h.2
  deferred h := h.2

/-! ## Parts of a render -/

namespace Outcome.Untouched

variable {α β : Type}

theorem of_silent {x : Outcome α} (h : x.trace = []) : Untouched hidden x x where
  eq := rfl
  trace := by
    rw [h]
    exact fun _ he => by cases he

theorem emit {event : Event} (h : event.Avoids hidden) :
    Untouched hidden (.emit event) (.emit event) where
  eq := rfl
  trace := by
    intro e he
    rwa [List.mem_singleton.1 he]

protected theorem bind {x y : Outcome α} {f g : α → Outcome β} (first : Untouched hidden x y)
    (next : ∀ a, x.answer = .ok a → Untouched hidden (f a) (g a)) :
    Untouched hidden (x >>= f) (y >>= g) := by
  obtain ⟨rfl, htrace⟩ := first
  cases hx : y.answer with
  | error cause =>
    refine ⟨?_, ?_⟩
    · obtain ⟨trace, answer⟩ := y
      cases hx
      rfl
    · rw [trace_bind_error y f cause hx]
      exact htrace
  | ok a =>
    obtain ⟨heq, hnext⟩ := next a hx
    refine ⟨?_, ?_⟩
    · obtain ⟨trace, answer⟩ := y
      cases hx
      show (⟨trace ++ (g a).trace, (g a).answer⟩ : Outcome β) =
        ⟨trace ++ (f a).trace, (f a).answer⟩
      rw [heq]
    · rw [trace_bind_ok y f a hx, List.forall_mem_append]
      exact ⟨htrace, hnext⟩

end Outcome.Untouched

open Outcome

private theorem untouched_expectText (value : Value) :
    Untouched hidden value.expectText value.expectText := by
  cases value <;> exact .of_silent rfl

private theorem untouched_text {x y : Outcome Rendered} (h : Untouched hidden x y) :
    Untouched hidden
      (do
        let rendered ← x
        let result ← rendered.expect
        result.sql.expectText)
      (do
        let rendered ← y
        let result ← rendered.expect
        result.sql.expectText) := by
  apply h.bind
  intro rendered _
  apply Untouched.bind (.of_silent rfl)
  intro result _
  exact untouched_expectText _

private theorem untouched_inline (henv : env.AgreesOutside hidden env') {f : Fragment}
    (hf : f.template? ≠ some hidden)
    (hrender : Untouched hidden (resolve env .inlined 0 f) (resolve env' .inlined 0 f)) :
    Untouched hidden (env.inline f fun _ => resolve env .inlined 0 f)
      (env'.inline f fun _ => resolve env' .inlined 0 f) := by
  cases f with
  | template label form strings values =>
    have hlabel : label ≠ hidden := fun h => hf (congrArg some h)
    simp only [Environment.inline, henv.remembered label hlabel]
    split
    · exact .of_silent rfl
    · exact untouched_expectText _
    · apply untouched_text
      refine ⟨by rw [hrender.eq], ?_⟩
      intro event hevent
      rw [List.mem_singleton.1 hevent]
      exact .inlined hlabel hrender.trace _
  | raw | identifier | parameter | parameterList | columnList | lines | clause | leaf | probe
  | deferred | endless | unrenderable =>
    simp only [Environment.inline]
    split
    · exact .of_silent rfl
    · exact untouched_text hrender

private theorem untouched_write (henv : env.AgreesOutside hidden env')
    (hcontext : context.Avoids hidden) {value : Value} (hvalue : value.Avoids hidden true)
    (hjson : Untouched hidden (json env value) (json env' value)) :
    Untouched hidden (context.escape.write env value context.timezone fun _ => json env value)
      (context.escape.write env' value context.timezone fun _ => json env' value) := by
  have hescape := hcontext.escape
  cases hescaper : context.escape with
  | standard =>
    simp only [LiteralEscaper.write, henv.hostMinutes]
    split
    · rw [ofExcept_bind_pure]
      exact .of_silent rfl
    · apply hjson.bind
      intro tree _
      exact .of_silent rfl
  | custom label write =>
    rw [hescaper] at hescape
    exact hescape env env' value _ henv hvalue hcontext.timezone
  | broken given => exact .of_silent rfl

private theorem untouched_writeName (henv : env.AgreesOutside hidden env')
    (hcontext : context.Avoids hidden) {name : Value} (hname : name.Avoids hidden true) :
    Untouched hidden (context.escapeId.write env name) (context.escapeId.write env' name) := by
  have hescape := hcontext.escapeId
  cases hescaper : context.escapeId with
  | standard => exact .of_silent rfl
  | custom label write =>
    rw [hescaper] at hescape
    exact hescape env env' name henv hname
  | broken given => exact .of_silent rfl

/-! ## Renders -/

theorem Context.avoids_inlined : Context.inlined.Avoids hidden :=
  ⟨trivial, trivial, trivial, trivial⟩

def Environment.AgreesOutside.comparison (henv : env.AgreesOutside hidden env') :
    Comparison env env' where
  Related := Untouched hidden
  Admits := Context.Avoids hidden
  Within := Value.Avoids hidden false
  Writable := Value.Avoids hidden true
  parts := parts_avoids hidden
  ofExcept _ := .of_silent rfl
  bind := .bind
  leafRendered label := .emit (.leafRendered label)
  announce hcontext _ := .emit (.rendering _ _ hcontext.timezone hcontext.method)
  inlined := Context.avoids_inlined
  inline hf := untouched_inline henv (hf.1 rfl)
  write hcontext _ hvalue := untouched_write henv hcontext hvalue
  writeName hcontext _ := untouched_writeName henv hcontext

theorem Environment.AgreesOutside.refl (env : Environment) : env.AgreesOutside hidden env :=
  ⟨rfl, fun _ _ => rfl⟩

theorem avoids_of_mem_trace {f : Fragment} (hf : f.Avoids hidden) (hcontext : context.Avoids hidden)
    (depth : Nat) : ∀ event ∈ (resolve env context depth f).trace, event.Avoids hidden :=
  have hwithin : (Value.fragment f).Avoids hidden false := ⟨nofun, hf⟩
  ((Environment.AgreesOutside.refl env).comparison.resolve f hwithin hcontext depth).trace

end SqlFragments
