import Mathlib
import SqlFragments.Proofs.Render.Compose
import SqlFragments.Proofs.Render.Options
import SqlFragments.Proofs.Render.Steps
import SqlFragments.Proofs.Render.Walk

/-!
# Rendering is a congruence

Fragments with the same text and the same bindings can be put in one another's place anywhere in a
tree. Nothing around the place asks what kind of fragment stands there or how its result is tagged.
-/

namespace SqlFragments

open Outcome

variable {env : Environment} {context : Context} {f g : Fragment}

/-! ## Trees with an open place -/

/-- A fragment with an open place for one of the things that are evaluated in it. -/
inductive Frame
  | template (label : Label) (form : TemplateForm) (strings before after : List Value)
  | clause (strings : List Value)
  | lines (before after : List Value) (separator : Value)

def Frame.fill (inner : Fragment) : Frame → Fragment
  | template label form strings before after =>
    .template label form strings (before ++ .fragment inner :: after)
  | clause strings => .clause strings (.fragment inner)
  | lines before after separator => .lines (before ++ .fragment inner :: after) separator

def Frame.hold (value : Value) : Frame → Fragment
  | template label form strings before after =>
    .template label form strings (before ++ value :: after)
  | clause strings => .clause strings value
  | lines before after separator => .lines (before ++ value :: after) separator

/-- What is evaluated for a value in an open place. Between literal parts a plain one is a
parameter. -/
def Frame.placed (value : Value) : Frame → Value
  | template .. => value.promoted
  | clause _ | lines .. => value

theorem Frame.fill_eq_hold (inner : Fragment) (frame : Frame) :
    frame.fill inner = frame.hold (.fragment inner) := by
  cases frame <;> rfl

theorem Frame.placed_fragment (inner : Fragment) (frame : Frame) :
    frame.placed (.fragment inner) = .fragment inner := by
  cases frame <;> rfl

/-- A tree with a fragment in its open place. The frames go from the place outwards. -/
def plug (frames : List Frame) (inner : Fragment) : Fragment :=
  frames.foldl (fun filled frame => frame.fill filled) inner

/-! ## Congruent results -/

/-- Two results with the same text and the same bindings; they may be tagged differently. -/
structure Result.Congruent (p q : Result) : Prop where
  sql : p.sql = q.sql
  bindings : p.bindings = q.bindings

def Rendered.Congruent : Rendered → Rendered → Prop
  | result p, result q => p.Congruent q
  | other v, other w => v = w
  | _, _ => False

theorem Rendered.Congruent.refl (r : Rendered) : r.Congruent r := by
  cases r with
  | result p => exact ⟨rfl, rfl⟩
  | other v => rfl

theorem Rendered.Congruent.toResult {r s : Rendered} (h : r.Congruent s) :
    r.toResult.map Result.sql = s.toResult.map Result.sql ∧
      boundValues [r.toResult] = boundValues [s.toResult] := by
  cases r <;> cases s
  case result.result p q => simp [Rendered.toResult, Except.map, boundValues, h.sql, h.bindings]
  case other.other v w => exact ⟨rfl, rfl⟩
  all_goals exact h.elim

private theorem congruent_expect {r s : Rendered} (h : r.Congruent s) :
    Matching Result.Congruent r.expect s.expect := by
  cases r <;> cases s
  case result.result p q => exact .pure h
  case other.other v w => exact .error rfl rfl
  all_goals exact h.elim

private theorem congruent_compose (strings : List Value) {rs ss : List Rendered}
    (h : List.Forall₂ Rendered.Congruent rs ss) :
    compose strings (rs.map Rendered.toResult) context =
      compose strings (ss.map Rendered.toResult) context := by
  have hparts : (rs.map Rendered.toResult).map (Except.map Result.sql) =
      (ss.map Rendered.toResult).map (Except.map Result.sql) ∧
      boundValues (rs.map Rendered.toResult) = boundValues (ss.map Rendered.toResult) := by
    induction h with
    | nil => exact ⟨rfl, rfl⟩
    | @cons r s rs ss hhead _ ih =>
      obtain ⟨hsql, hbindings⟩ := hhead.toResult
      simp only [boundValues, List.map_cons, List.flatMap_cons, List.flatMap_nil,
        List.append_nil] at hbindings ih ⊢
      rw [hsql, ih.1, hbindings, ih.2]
      exact ⟨rfl, rfl⟩
  rw [compose_eq_map, compose_eq_map, composedText_congr strings hparts.1, hparts.2]

private theorem congruent_surround (strings : List Value) {p q : Result} (h : p.Congruent q) :
    surround context strings p = surround context strings q := by
  have hone : List.Forall₂ Rendered.Congruent [.result p] [.result q] := .cons h .nil
  have hcompose : compose strings [.ok p] context = compose strings [.ok q] context :=
    congruent_compose strings hone
  unfold surround
  rw [h.sql, h.bindings, hcompose]

/-! ## A step out of the open place -/

/-- Two renders that come to one result, or fail for one cause. -/
def Outcome.Coincides (x y : Outcome Rendered) : Prop :=
  Matching (fun r s => r = s ∧ ∃ p, r = .result p) x y

private theorem Outcome.Coincides.congruent {x y : Outcome Rendered} (h : x.Coincides y) :
    Matching Rendered.Congruent x y := by
  cases h with
  | error hx hy => exact .error hx hy
  | ok hx hy related =>
    obtain ⟨rfl, -⟩ := related
    exact .ok hx hy (.refl _)

private theorem coincides_result {x y : Outcome Result} (h : Matching Eq x y) :
    Coincides (do let result ← x; pure (.result result))
      (do let result ← y; pure (.result result)) := by
  apply Matching.bind h
  rintro p _ rfl
  exact .pure ⟨rfl, p, rfl⟩

private theorem promotedEach_around (before after : List Value) (value : Value) :
    promotedEach env context (before ++ value :: after) = (do
      let front ← promotedEach env context before
      let rendered ← evaluate env context value.promoted
      let back ← promotedEach env context after
      pure (front ++ rendered :: back)) := by
  simp only [promotedEach_eq_mapM, List.map_append, List.map_cons, List.mapM_append,
    List.mapM_cons, bind_assoc, pure_bind]

/-- Lines with one more member behind them, which is not the last one. -/
private def putLine (env : Environment) (context : Context) (separator : Value)
    (lines : Value × List Value) (member : Value) : Outcome (Value × List Value) := do
  let rendered ← evaluate env context member
  let result ← rendered.expect
  let sql ← lengthen separator false lines.1 result.sql
  pure (sql, lines.2 ++ result.bindings)

private theorem linesFrom_around (before after : List Value) (separator sql : Value)
    (bindings : List Value) (value : Value) :
    linesFrom env context separator sql bindings (before ++ value :: after) = (do
      let lines ← before.foldlM (putLine env context separator) (sql, bindings)
      linesFrom env context separator lines.1 lines.2 (value :: after)) := by
  induction before generalizing sql bindings with
  | nil => rfl
  | cons member before ih =>
    -- Something comes after this member, so it is not the last one.
    have hlast : (before ++ value :: after).isEmpty = false := by cases before <;> rfl
    rw [List.cons_append, linesFrom_cons, hlast, List.foldlM_cons, putLine]
    simp only [ih, bind_assoc, pure_bind]

/-- A fragment does something, then has evaluated what is held in its open place, and goes on by its
text and bindings alone. -/
theorem Frame.exists_evaluate_hold (env : Environment) (context : Context) (frame : Frame) :
    ∃ (α : Type) (first : Outcome α) (next : α → Rendered → Outcome Rendered),
      (∀ value, evaluate env context (.fragment (frame.hold value)) = (do
        let a ← first
        let rendered ← evaluate env context (frame.placed value)
        next a rendered)) ∧
      ∀ a r s, Rendered.Congruent r s → Coincides (next a r) (next a s) := by
  cases frame with
  | template label form strings before after =>
    have henter (values : List Value) : context.enter (.template label form strings values) =
        context.enter (.template label form strings []) := by cases form <;> rfl
    refine ⟨_, (do
      context.enter (.template label form strings [])
      promotedEach env context before), fun front rendered => (do
      let back ← promotedEach env context after
      let result ← Outcome.ofExcept
        (compose strings ((front ++ rendered :: back).map Rendered.toResult) context)
      pure (.result result)), fun value => ?_, fun front r s h => ?_⟩
    · rw [evaluate, hold, placed, resolve, promotedEach_around, henter]
      simp only [bind_assoc, pure_bind]
    · apply Matching.bind (.same _)
      rintro back _ ⟨rfl, -⟩
      have hrefl : ∀ rs : List Rendered, List.Forall₂ Rendered.Congruent rs rs :=
        fun rs => List.forall₂_same.2 fun r _ => .refl r
      have hall : List.Forall₂ Rendered.Congruent (front ++ r :: back) (front ++ s :: back) :=
        List.rel_append (hrefl front) (.cons h (hrefl back))
      exact coincides_result (.of_answer_eq (congruent_compose strings hall))
  | clause strings =>
    refine ⟨_, context.enter (.clause strings .null), fun _ rendered => (do
      let inner ← rendered.expect
      let result ← Outcome.ofExcept (surround context strings inner)
      pure (.result result)), fun value => ?_, fun _ r s h => ?_⟩
    · rw [evaluate, hold, placed, resolve_clause]
      rfl
    · apply Matching.bind (congruent_expect h)
      intro p q hresult
      exact coincides_result (.of_answer_eq (congruent_surround strings hresult))
  | lines before after separator =>
    refine ⟨_, (do
      context.enter (.lines [] separator)
      before.foldlM (putLine env context separator) (.text "", [])), fun lines rendered => (do
      let result ← rendered.expect
      let sql ← lengthen separator after.isEmpty lines.1 result.sql
      let result ← linesFrom env context separator sql (lines.2 ++ result.bindings) after
      pure (.result result)), fun value => ?_, fun lines r s h => ?_⟩
    · have henter : context.enter (.lines (before ++ value :: after) separator) =
          context.enter (.lines [] separator) := rfl
      rw [evaluate, hold, placed, resolve, linesFrom_around, henter]
      simp only [linesFrom_cons, bind_assoc]
    · apply Matching.bind (congruent_expect h)
      intro p q hresult
      rw [hresult.sql, hresult.bindings]
      apply Matching.bind (.same _)
      rintro sql _ ⟨rfl, -⟩
      exact coincides_result (.of_answer_eq rfl)

/-- A fragment renders to one result, whichever of two values is held in it that come to congruent
results there. -/
theorem Frame.coincides_hold {v w : Value} (frame : Frame)
    (h : Matching Rendered.Congruent (evaluate env context (frame.placed v))
      (evaluate env context (frame.placed w))) :
    Coincides (evaluate env context (.fragment (frame.hold v)))
      (evaluate env context (.fragment (frame.hold w))) := by
  obtain ⟨_, first, next, hhold, hnext⟩ := frame.exists_evaluate_hold env context
  rw [hhold, hhold]
  apply Matching.bind (.same first)
  rintro a _ ⟨rfl, -⟩
  exact Matching.bind h (hnext a)

section

variable (h : Matching Rendered.Congruent (evaluate env context (.fragment f))
  (evaluate env context (.fragment g)))

include h

theorem Frame.coincides_fill (frame : Frame) :
    Coincides (evaluate env context (.fragment (frame.fill f)))
      (evaluate env context (.fragment (frame.fill g))) := by
  rw [fill_eq_hold, fill_eq_hold]
  apply frame.coincides_hold
  rwa [placed_fragment, placed_fragment]

theorem coincides_plug (frame : Frame) (outer : List Frame) :
    Coincides (evaluate env context (.fragment (plug (frame :: outer) f)))
      (evaluate env context (.fragment (plug (frame :: outer) g))) := by
  induction outer generalizing frame f g with
  | nil => exact frame.coincides_fill h
  | cons next outer ih => exact ih (frame.coincides_fill h).congruent next

end

/-- Two fragments that render to the same text and bindings can be exchanged anywhere in a tree,
whatever they are: the tree comes to the same result with either, or fails for one cause. -/
theorem Options.render_plug_congr {options : Options} {p q : Result}
    (hf : options.render env (.fragment f) = .ok (.result p))
    (hg : options.render env (.fragment g) = .ok (.result q))
    (hsql : p.sql = q.sql) (hbindings : p.bindings = q.bindings) (frame : Frame)
    (outer : List Frame) :
    (∃ result, options.render env (.fragment (plug (frame :: outer) f)) = .ok (.result result) ∧
      options.render env (.fragment (plug (frame :: outer) g)) = .ok (.result result)) ∨
    ∃ cause, options.render env (.fragment (plug (frame :: outer) f)) = .error cause ∧
      options.render env (.fragment (plug (frame :: outer) g)) = .error cause := by
  cases hfields : options.fields with
  | error cause =>
    rw [render, normalize, hfields] at hf
    cases hf
  | ok fields =>
    rw [render_of_fields hfields] at hf hg
    rw [render_of_fields hfields, render_of_fields hfields]
    have hresults : Rendered.Congruent (.result p) (.result q) := ⟨hsql, hbindings⟩
    cases coincides_plug (.ok hf hg hresults) frame outer with
    | error hx hy => exact .inr ⟨_, hx, hy⟩
    | ok hx hy related =>
      obtain ⟨rfl, result, rfl⟩ := related
      exact .inl ⟨result, hx, hy⟩

/-- A text that is taken over and a statement with the same text; their results are tagged with
different methods. They stand in lines in a clause in a statement. -/
theorem Options.render_plug_congr_method :
    let options : Options := .mapping 0 [(.text "method", .value (.text "select"))]
    let f : Fragment := .raw (.text "a = 1")
    let g : Fragment := .template 0 .statement [.text "  a = 1\n"] []
    let lines : Frame := .lines [.text "b"] [.fragment (.raw .null)] (.text "\n  AND ")
    let outer : List Frame := [.clause [.text "WHERE TRUE", .text ""],
      .template 1 .statement [.text "SELECT ", .text " FROM t ", .text ""] [.int 5] []]
    let p : Result := { sql := .text "a = 1" }
    let q : Result := { sql := .text "a = 1", method := .text "select" }
    let result : Result := {
      sql := .text "SELECT ? FROM t WHERE TRUE\n  AND ?\n  AND a = 1\n  AND"
      bindings := [.int 5, .text "b"]
      method := .text "select" }
    (options.render {} (.fragment f) = .ok (.result p) ∧
      options.render {} (.fragment g) = .ok (.result q) ∧ p.sql = q.sql ∧
      p.bindings = q.bindings) ∧
    options.render {} (.fragment (plug (lines :: outer) f)) = .ok (.result result) ∧
      options.render {} (.fragment (plug (lines :: outer) g)) = .ok (.result result) := by
  intro options f g lines outer p q result
  have hf : options.render {} (.fragment f) = .ok (.result p) := by cbv
  have hg : options.render {} (.fragment g) = .ok (.result q) := by cbv
  have hplug : options.render {} (.fragment (plug (lines :: outer) f)) =
      .ok (.result result) := by cbv
  refine ⟨⟨hf, hg, rfl, rfl⟩, hplug, ?_⟩
  rcases render_plug_congr hf hg rfl rfl lines outer with
    ⟨same, hsame, hother⟩ | ⟨cause, hfails, -⟩
  · cases hplug.symm.trans hsame
    exact hother
  · cases hplug.symm.trans hfails

end SqlFragments
