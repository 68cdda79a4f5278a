import Mathlib
import SqlFragments.Proofs.Render.Compose
import SqlFragments.Proofs.Text.Reindent

/-!
# Re-indented statements

Composing takes the common indentation of a statement away. It does so part by part, so that text
behind a value that begins with the indentation loses it too; for all other statements it makes no
difference how far they are indented.
-/

namespace SqlFragments

open Text

def literalParts (parts : List (List Char)) : List Value :=
  parts.map fun cs => .text (String.ofList cs)

variable {indent : List Char}

theorem dedentParts_literalParts (first : List Char) (rest : List (List Char)) :
    dedentParts (literalParts (first :: rest)) = .ok (literalParts (dedent (first :: rest))) := by
  have htexts : literalParts (first :: rest) =
      (String.ofList first :: rest.map String.ofList).map .text := by
    simp [literalParts, Function.comp_def]
  rw [htexts, dedentParts_text]
  simp [literalParts, Function.comp_def]

private theorem composedText_literalParts {parts rest : List (List Char)} {first : List Char}
    (hdedent : dedent parts = first :: rest) (results : List (Except Failure Result)) :
    composedText (literalParts parts) results =
      (interleave (String.ofList first) results (literalParts rest)).map strip := by
  cases parts with
  | nil => cases hdedent
  | cons part others =>
    rw [composedText, dedentParts_literalParts, hdedent]
    rfl

private theorem strip_dedentLine_last {last : List Char}
    (h : keepsSpacing indent [last] = true) (s : String) :
    strip (s ++ String.ofList (dedentLine indent last)) = strip (s ++ String.ofList last) := by
  unfold dedentLine
  by_cases hprefix : indent.isPrefixOf last = true
  · rw [keepsSpacing, hprefix, Bool.not_true, Bool.false_or, List.all_eq_true] at h
    have hdropped : ∀ c ∈ last.drop indent.length, isBlank c = true :=
      fun c hc => h c (List.mem_of_mem_drop hc)
    rw [if_pos hprefix]
    simp [strip, trim_append_blank _ h, trim_append_blank _ hdropped]
  · rw [if_neg hprefix]

private theorem strip_interleave_dedentLine {rest : List (List Char)}
    (h : keepsSpacing indent rest = true) (results : List (Except Failure Result)) (s : String) :
    (interleave s results (literalParts (rest.map (dedentLine indent)))).map strip =
      (interleave s results (literalParts rest)).map strip := by
  induction rest generalizing results s with
  | nil => rfl
  | cons part rest ih =>
    cases results with
    | nil => rfl
    | cons result results =>
      cases result with
      | error cause => rfl
      | ok result =>
        simp only [literalParts, List.map_cons, interleave]
        cases result.sql with
        | text a =>
          cases rest with
          | nil =>
            cases results with
            | nil =>
              have hlast := strip_dedentLine_last h (s ++ a)
              simp only [interleave, Except.map, ← String.append_assoc, hlast]
            | cons result results => cases result <;> rfl
          | cons next rest =>
            rw [keepsSpacing, Bool.and_eq_true, Bool.not_eq_true'] at h
            rw [dedentLine, h.1, if_neg Bool.false_ne_true]
            exact ih h.2 results _
        | _ => rfl

private def mark : Except Failure Result :=
  .ok { sql := .text "?" }

private theorem interleave_marks (rest : List (List Char)) (s : String) :
    interleave s (rest.map fun _ => mark) (literalParts rest) =
      .ok (s ++ String.ofList (withMarks rest)) := by
  induction rest generalizing s with
  | nil => simp [interleave, withMarks]
  | cons part rest ih =>
    have hrest := ih (s ++ ("?" ++ String.ofList part))
    simp only [literalParts, List.map_cons, mark, interleave] at hrest ⊢
    rw [hrest]
    congr 1
    apply String.toList_inj.1
    simp [withMarks]

/-- A statement that starts with a visible character renders alike when it is re-indented, whatever
its values render to, exactly where the parts behind values keep their spacing. -/
theorem compose_reindent_iff (hindent : ∀ c ∈ indent, isIndent c = true) (hne : indent ≠ [])
    {c : Char} (hc : isIndent c = false) (hbreak : c ≠ '\n') (cs : List Char)
    (rest : List (List Char)) :
    (∀ (results : List Result) (context : Context), results.length = rest.length →
      compose (literalParts (reindent indent ((c :: cs) :: rest))) (results.map .ok) context =
        compose (literalParts ((c :: cs) :: rest)) (results.map .ok) context) ↔
      keepsSpacing indent rest = true := by
  have hreindented := composedText_literalParts (dedent_reindent hindent hne hc hbreak cs rest)
  have horiginal := composedText_literalParts (dedent_of_visible hc hbreak cs rest)
  constructor
  · intro h
    have hmarks := h (rest.map fun _ => { sql := .text "?" }) {} (List.length_map _)
    have hmap : (rest.map fun _ => ({ sql := .text "?" } : Result)).map Except.ok =
        rest.map fun _ => mark := by
      simp [mark]
    have hdedented : (rest.map fun _ => mark) =
        (rest.map (dedentLine indent)).map fun _ => mark := by
      simp [Function.comp_def]
    rw [hmap, compose_eq_map, compose_eq_map, hreindented, horiginal, interleave_marks, hdedented,
      interleave_marks] at hmarks
    have htrim : trim ((c :: cs) ++ withMarks (rest.map (dedentLine indent))) =
        trim ((c :: cs) ++ withMarks rest) := by
      simp only [Except.map, Except.ok.injEq, Result.mk.injEq, Value.text.injEq] at hmarks
      have htexts := congrArg String.toList hmarks.1
      simpa using htexts
    exact keepsSpacing_of_trim_eq hindent hne (c :: cs) htrim
  · intro h results context _
    rw [compose_eq_map, compose_eq_map, hreindented, horiginal, strip_interleave_dedentLine h]

/-- A single space behind a value, a deeper line and a blank end do no harm. -/
theorem compose_reindent_deeper :
    compose (literalParts (reindent [' ', ' ']
        ["SELECT ".toList, " AS a\n    FROM ".toList, "  \n".toList]))
      ([{ sql := .text "?", bindings := [.int 1] }, { sql := .text "t" }].map .ok) {} =
    compose (literalParts ["SELECT ".toList, " AS a\n    FROM ".toList, "  \n".toList])
      ([{ sql := .text "?", bindings := [.int 1] }, { sql := .text "t" }].map .ok) {} := by
  have hindent : ∀ c ∈ [' ', ' '], isIndent c = true := by simp [isIndent]
  have hkeeps : keepsSpacing [' ', ' '] [" AS a\n    FROM ".toList, "  \n".toList] = true := by
    decide
  have hvisible : isIndent 'S' = false := by decide
  have hbreak : 'S' ≠ '\n' := by decide
  have h := (compose_reindent_iff hindent (by decide) hvisible hbreak "ELECT ".toList _).2 hkeeps
  exact h _ {} rfl

/-- Text that goes on behind a value loses its space in a statement that is indented by one. -/
theorem compose_reindent_ne :
    compose (literalParts (reindent [' '] ["SELECT ".toList, " FROM t".toList]))
        [.ok { sql := .text "a" }] {} ≠
      compose (literalParts ["SELECT ".toList, " FROM t".toList]) [.ok { sql := .text "a" }] {} := by
  have hreindented : compose (literalParts (reindent [' '] ["SELECT ".toList, " FROM t".toList]))
      [.ok { sql := .text "a" }] {} = .ok { sql := .text "SELECT aFROM t" } := by cbv
  have horiginal : compose (literalParts ["SELECT ".toList, " FROM t".toList])
      [.ok { sql := .text "a" }] {} = .ok { sql := .text "SELECT a FROM t" } := by cbv
  rw [hreindented, horiginal]
  simp

end SqlFragments
