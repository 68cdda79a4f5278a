import SqlFragments.Proofs.Outcome
import SqlFragments.Render.Compose

/-!
# Composed statements

What composing does apart: the text depends on the literal parts and the texts between them
alone, the bindings on the bindings alone.
-/

namespace SqlFragments

open Text

def composedText (strings : List Value) (results : List (Except Failure Result)) :
    Except Failure String := do
  match ← dedentParts strings with
  | .text first :: rest =>
    let sql ← interleave first results rest
    return strip sql
  | _ => .error .wrongType

/-- A composed result has the text, the bindings in order, and the tag of the context. -/
theorem compose_eq_map (strings : List Value) (results : List (Except Failure Result))
    (context : Context) :
    compose strings results context = (composedText strings results).map fun text =>
      { sql := .text text, bindings := boundValues results, method := context.tag } := by
  unfold compose composedText
  cases dedentParts strings with
  | error cause => rfl
  | ok parts =>
    cases parts with
    | nil => rfl
    | cons part rest =>
      cases part with
      | text first =>
        cases h : interleave first results rest <;> simp [h, bind, Except.bind] <;> rfl
      | _ => rfl

theorem compose_eq_ok {strings : List Value} {results : List (Except Failure Result)}
    {context : Context} {result : Result} :
    compose strings results context = .ok result ↔
      ∃ text, composedText strings results = .ok text ∧
        { sql := .text text, bindings := boundValues results, method := context.tag } = result := by
  rw [compose_eq_map, Outcome.map_eq_ok]

private theorem interleave_congr {results others : List (Except Failure Result)}
    (h : results.map (Except.map Result.sql) = others.map (Except.map Result.sql)) (sql : String)
    (parts : List Value) : interleave sql results parts = interleave sql others parts := by
  induction results generalizing others sql parts with
  | nil =>
    rw [List.map_eq_nil_iff.1 h.symm]
  | cons result results ih =>
    obtain ⟨other, others, rfl, hother, hothers⟩ := List.map_eq_cons_iff.1 h.symm
    cases result with
    | error cause =>
      cases other with
      | error cause' =>
        cases hother
        rfl
      | ok r => cases hother
    | ok r =>
      cases other with
      | error cause' => cases hother
      | ok r' =>
        have hsql : r'.sql = r.sql := Except.ok.inj hother
        cases parts with
        | nil => rfl
        | cons part parts =>
          simp only [interleave]
          rw [hsql]
          split
          · exact ih hothers.symm _ _
          · rfl

theorem composedText_congr (strings : List Value) {results others : List (Except Failure Result)}
    (h : results.map (Except.map Result.sql) = others.map (Except.map Result.sql)) :
    composedText strings results = composedText strings others := by
  unfold composedText
  simp only [interleave_congr h]

end SqlFragments
