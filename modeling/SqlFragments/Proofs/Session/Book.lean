import SqlFragments.Proofs.Outcome
import SqlFragments.Render.Evaluate

/-!
# Books of templates

A template that stands inside a value is written out by its memory. A book says for every label
which template it belongs to. Memory is right when what it holds for a template of the book is
what writing that template out gives without any memory.
-/

namespace SqlFragments

structure Pattern where
  form : TemplateForm
  strings : List Value
  values : List Value

def Pattern.fragment (pattern : Pattern) (label : Label) : Fragment :=
  .template label pattern.form pattern.strings pattern.values

/-- The templates that labels belong to, and the offset of the host's clock. -/
structure Book where
  hostMinutes : Rat := 0
  pattern? : Label → Option Pattern := fun _ => none

/-! ## Filed things -/

mutual

/-- A fragment is filed when every template that stands in it is the one of its label. Its
separators do not change when something is put behind them. -/
def Fragment.Filed (book : Book) : Fragment → Prop
  | .raw value => Value.Filed book value
  | .parameter value => Value.Filed book value
  | .parameterList values _ => Value.FiledEach book values
  | .columnList columns _ => Value.FiledEach book columns
  | .lines members separator => separator.takesUp = false ∧ Value.FiledEach book members
  | .clause _ value => Value.Filed book value
  | .template label form strings values =>
    book.pattern? label = some ⟨form, strings, values⟩ ∧ Value.FiledEach book values
  | .deferred _ target _ => Value.Filed book target
  | _ => True
termination_by structural f => f

def Value.Filed (book : Book) : Value → Prop
  | .list _ items => Value.FiledEach book items
  | .tuple items => Value.FiledEach book items
  | .dict _ entries => Value.FiledEntries book entries
  | .fragment f => Fragment.Filed book f
  | _ => True
termination_by structural v => v

def Value.FiledEach (book : Book) : List Value → Prop
  | [] => True
  | value :: rest => Value.Filed book value ∧ Value.FiledEach book rest
termination_by structural vs => vs

def Value.FiledEntries (book : Book) : List (Value × Value) → Prop
  | [] => True
  | (_, value) :: rest => Value.Filed book value ∧ Value.FiledEntries book rest
termination_by structural entries => entries

end

namespace Book

def environment (book : Book) : Environment where
  hostMinutes := book.hostMinutes

/-- What a template gives when it is rendered without memory. -/
def rendered (book : Book) (context : Context) (f : Fragment) : Except Failure Rendered :=
  (resolve book.environment context 0 f).answer

/-- An environment with the clock of the book, in which a template of the book remembers at most
the text that it is written out as. -/
structure Describes (book : Book) (env : Environment) : Prop where
  hostMinutes : env.hostMinutes = book.hostMinutes
  remembered : ∀ label pattern, book.pattern? label = some pattern →
    env.remembered label = .ok none ∨
      ∃ r, book.rendered .inlined (pattern.fragment label) = .ok (.result r) ∧
        env.remembered label = .ok (some r.sql)

end Book

/-! ## Events -/

/-- An event that changes no memory but by what is right: a template that was written out is in
the book, with the result that it has without memory. -/
inductive Event.Filed (book : Book) : Event → Prop
  | rendering (kindName : String) (withParameters : Bool) {timezone method : Value}
    (htimezone : timezone.Filed book) (hmethod : method.Filed book) :
    Event.Filed book (.rendering kindName withParameters timezone method)
  | literalEscaped (value timezone : Value) : Event.Filed book (.literalEscaped value timezone)
  | identifierEscaped (name : Value) : Event.Filed book (.identifierEscaped name)
  | leafRendered (label : Label) : Event.Filed book (.leafRendered label)
  | inlined {label : Label} {pattern : Pattern} {trace : List Event} {result : Option Result}
    (hpattern : book.pattern? label = some pattern)
    (htrace : ∀ event ∈ trace, Event.Filed book event)
    (hresult : ∀ r, result = some r →
      book.rendered .inlined (pattern.fragment label) = .ok (.result r)) :
    Event.Filed book (.inlined label trace result)

/-- Two outcomes with one answer, of which the first changes no memory but by what is right. -/
structure Book.Steady (book : Book) {α : Type} (x y : Outcome α) : Prop where
  answer : x.answer = y.answer
  trace : ∀ event ∈ x.trace, event.Filed book

namespace Book.Steady

variable {book : Book} {α β : Type}

theorem of_silent {x : Outcome α} (h : x.trace = []) : book.Steady x x where
  answer := rfl
  trace := by
    rw [h]
    exact fun _ he => by cases he

protected theorem pure (a : α) : book.Steady (pure a) (pure a) :=
  of_silent rfl

theorem ofExcept (answer : Except Failure α) :
    book.Steady (.ofExcept answer) (.ofExcept answer) :=
  of_silent rfl

theorem emit {event : Event} (h : event.Filed book) :
    book.Steady (.emit event) (.emit event) where
  answer := rfl
  trace := by
    intro e he
    rwa [List.mem_singleton.1 he]

protected theorem bind {x y : Outcome α} {f g : α → Outcome β} (first : book.Steady x y)
    (next : ∀ a, x.answer = .ok a → book.Steady (f a) (g a)) :
    book.Steady (x >>= f) (y >>= g) := by
  cases hx : x.answer with
  | error cause =>
    refine ⟨?_, ?_⟩
    · rw [Outcome.answer_bind, Outcome.answer_bind, ← first.answer, hx]
      rfl
    · rw [Outcome.trace_bind_error x f cause hx]
      exact first.trace
  | ok a =>
    have hnext := next a hx
    refine ⟨?_, ?_⟩
    · rw [Outcome.answer_bind, Outcome.answer_bind, ← first.answer, hx]
      exact hnext.answer
    · rw [Outcome.trace_bind_ok x f a hx]
      intro event he
      rcases List.mem_append.1 he with he | he
      · exact first.trace event he
      · exact hnext.trace event he

theorem mapM {f g : α → Outcome β} {as : List α} (h : ∀ a ∈ as, book.Steady (f a) (g a)) :
    book.Steady (as.mapM f) (as.mapM g) := by
  induction as with
  | nil => exact .pure []
  | cons a as ih =>
    rw [List.forall_mem_cons] at h
    rw [List.mapM_cons, List.mapM_cons]
    apply Steady.bind h.1
    intro b _
    apply Steady.bind (ih h.2)
    intro bs _
    exact .pure _

end Book.Steady

/-! ## Escapers and contexts -/

def LiteralEscaper.Steady (book : Book) : LiteralEscaper → Prop
  | custom _ write => ∀ env value timezone, book.Describes env → value.Filed book →
    timezone.Filed book → book.Steady (write env value timezone)
      (write book.environment value timezone)
  | _ => True

def IdentifierEscaper.Steady (book : Book) : IdentifierEscaper → Prop
  | custom _ write => ∀ env name, book.Describes env → name.Filed book →
    book.Steady (write env name) (write book.environment name)
  | _ => True

structure Context.Steady (book : Book) (context : Context) : Prop where
  escape : context.escape.Steady book
  escapeId : context.escapeId.Steady book
  timezone : context.timezone.Filed book
  method : context.method.Filed book

end SqlFragments
