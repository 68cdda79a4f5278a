import SqlFragments.Proofs.Render.Comparison
import SqlFragments.Proofs.Session.Book

/-!
# Renders and memory

What templates remember, as long as it is right, changes no answer of a render, and a render adds
nothing to memory but what is right.
-/

namespace SqlFragments

open Outcome Book

variable {book : Book} {env : Environment} {context : Context}

/-! ## Parts of a render -/

namespace Book

theorem steady_inlined : Context.inlined.Steady book :=
  ⟨trivial, trivial, trivial, trivial⟩

private theorem steady_expectText (value : Value) :
    book.Steady value.expectText value.expectText := by
  cases value <;> exact .of_silent rfl

private theorem eq_ok_of_toOption {answer : Except Failure Rendered} {r : Result}
    (h : (answer.bind Rendered.toResult).toOption = some r) : answer = .ok (.result r) := by
  cases answer with
  | error cause => cases h
  | ok rendered =>
    cases rendered with
    | other v => cases h
    | result r' =>
      cases h
      rfl

private theorem steady_inline (henv : book.Describes env) {f : Fragment} (hf : f.Filed book)
    (hrender : book.Steady (resolve env .inlined 0 f) (resolve book.environment .inlined 0 f)) :
    book.Steady (env.inline f fun _ => resolve env .inlined 0 f)
      (book.environment.inline f fun _ => resolve book.environment .inlined 0 f) := by
  have hothers : ∀ x y : Outcome Rendered, book.Steady x y → book.Steady
      (do
        let rendered ← x
        let result ← rendered.expect
        result.sql.expectText)
      (do
        let rendered ← y
        let result ← rendered.expect
        result.sql.expectText) := by
    intro x y h
    apply Steady.bind h
    intro rendered _
    apply Steady.bind (.ofExcept _)
    intro result _
    exact steady_expectText _
  cases f with
  | template label form strings values =>
    have hpattern := hf.1
    have hblank : book.environment.remembered label = .ok none := rfl
    rcases henv.remembered label _ hpattern with hnone | ⟨r, hr, hsome⟩
    · simp only [Environment.inline, hnone, hblank]
      apply hothers
      refine ⟨hrender.answer, ?_⟩
      intro event he
      rw [List.mem_singleton.1 he]
      apply Event.Filed.inlined hpattern hrender.trace
      intro r hr
      exact hrender.answer.symm.trans (eq_ok_of_toOption hr)
    · simp only [Environment.inline, hsome, hblank]
      refine ⟨?_, (steady_expectText r.sql).trace⟩
      have hanswer : (resolve book.environment .inlined 0 (.template label form strings
          values)).answer = .ok (.result r) := hr
      rw [answer_bind, hanswer]
      rfl
  | raw | identifier | parameter | parameterList | columnList | lines | clause | leaf | probe
  | deferred | endless | unrenderable =>
    simp only [Environment.inline]
    split
    · exact .ofExcept _
    · exact hothers _ _ hrender

private theorem steady_write (henv : book.Describes env) {escaper : LiteralEscaper}
    (hescaper : escaper.Steady book) {value timezone : Value} (hvalue : value.Filed book)
    (htimezone : timezone.Filed book)
    (hjson : book.Steady (json env value) (json book.environment value)) :
    book.Steady (escaper.write env value timezone fun _ => json env value)
      (escaper.write book.environment value timezone fun _ => json book.environment value) := by
  cases escaper with
  | standard =>
    have hhost : book.environment.hostMinutes = book.hostMinutes := rfl
    simp only [LiteralEscaper.write, henv.hostMinutes, hhost]
    cases Literal.scalar? book.hostMinutes timezone value with
    | some written =>
      dsimp only
      rw [Outcome.ofExcept_bind_pure]
      exact .ofExcept _
    | none =>
      apply Steady.bind hjson
      intro tree _
      exact .pure _
  | custom label write => exact hescaper env value timezone henv hvalue htimezone
  | broken given => exact .ofExcept _

private theorem steady_writeName (henv : book.Describes env) {escaper : IdentifierEscaper}
    (hescaper : escaper.Steady book) {name : Value} (hname : name.Filed book) :
    book.Steady (escaper.write env name) (escaper.write book.environment name) := by
  cases escaper with
  | standard => exact .ofExcept _
  | custom label write => exact hescaper env name henv hname
  | broken given => exact .ofExcept _

theorem filed_of_mem {values : List Value} (h : Value.FiledEach book values) :
    ∀ value ∈ values, value.Filed book := by
  induction values with
  | nil => exact fun _ hvalue => by cases hvalue
  | cons first rest ih =>
    rw [List.forall_mem_cons]
    exact ⟨h.1, ih h.2⟩

private theorem filed_of_mem_entries {entries : List (Value × Value)}
    (h : Value.FiledEntries book entries) : ∀ entry ∈ entries, entry.2.Filed book := by
  induction entries with
  | nil => exact fun _ hentry => by cases hentry
  | cons first rest ih =>
    rw [List.forall_mem_cons]
    exact ⟨h.1, ih h.2⟩

private theorem parts_filed (book : Book) : Parts (Value.Filed book) (Value.Filed book) where
  null := trivial
  bool _ := trivial
  text _ := trivial
  list h := filed_of_mem h
  tuple h := filed_of_mem h
  dict h := filed_of_mem_entries h
  written h := h
  raw h := h
  parameter h := h
  parameterList h := filed_of_mem h
  columnList h := filed_of_mem h
  lines h := ⟨h.1, filed_of_mem h.2⟩
  clause h := h
  template h value hvalue := by
    rw [ite_self]
    exact filed_of_mem h.2 value hvalue
  deferred h := h

def comparison (henv : book.Describes env) : Comparison env book.environment where
  Related := book.Steady
  Admits := Context.Steady book
  Within := Value.Filed book
  Writable := Value.Filed book
  parts := parts_filed book
  ofExcept := .ofExcept
  bind := .bind
  leafRendered label := .emit (.leafRendered label)
  announce hcontext _ := .emit (.rendering _ _ hcontext.timezone hcontext.method)
  inlined := steady_inlined
  inline := steady_inline henv
  write hcontext _ hvalue := steady_write henv hcontext.escape hvalue hcontext.timezone
  writeName hcontext _ := steady_writeName henv hcontext.escapeId

end Book

/-! ## Renders -/

theorem steady_literal (henv : book.Describes env) {value timezone : Value}
    (hvalue : value.Filed book) (htimezone : timezone.Filed book) :
    book.Steady (literal env value timezone) (literal book.environment value timezone) :=
  have hstandard : LiteralEscaper.standard.Steady book := trivial
  steady_write henv hstandard hvalue htimezone ((comparison henv).json value hvalue)

/-- A template that is not in the book itself, but whose values are filed, answers alike whatever
templates remember. -/
theorem steady_template (henv : book.Describes env) (hcontext : context.Steady book)
    {pattern : Pattern} (hvalues : Value.FiledEach book pattern.values) (label : Label) :
    book.Steady (resolve env context 0 (pattern.fragment label))
      (resolve book.environment context 0 (pattern.fragment label)) := by
  apply (comparison henv).template hcontext
  intro value hvalue
  have hfiled := filed_of_mem hvalues value hvalue
  split <;> exact hfiled

end SqlFragments
