import Mathlib
import SqlFragments.Proofs.Render.Reindent
import SqlFragments.Proofs.Render.Splice
import SqlFragments.Proofs.Text.Dedent

/-!
# Dedented statements

A statement composes to the text of its parts as they are dedented without leading blank lines, with
the texts of its values between them. What dedenting leaves in front besides is trimmed away, so
that dedented parts compose to the same, and no character that can be seen is lost.
-/

namespace SqlFragments

open Outcome Text

def interlace : List (List Char) → List (List Char) → List Char
  | [], _ => []
  | part :: parts, [] => part ++ interlace parts []
  | part :: parts, text :: texts => part ++ (text ++ interlace parts texts)

/-! ## Composed text -/

private theorem trim_append_of_blank {blanks : List Char} (h : ∀ c ∈ blanks, isBlank c = true)
    (cs : List Char) : trim (blanks ++ cs) = trim cs := by
  rw [trim, trim, List.dropWhile_append_of_pos h]

private theorem composedText_eq_weave (first : List Char) (rest : List (List Char))
    (results : List (Except Failure Result)) :
    composedText (literalParts (first :: rest)) results =
      (weave results ((dedentContent (first :: rest)).map String.ofList)).map strip := by
  obtain ⟨blanks, start, others, hblanks, hdedent, hcontent⟩ := exists_dedent_eq_append first rest
  have hstrip : ∀ s, strip (String.ofList blanks ++ s) = strip s := by
    intro s
    simp [strip, trim_append_of_blank hblanks]
  have hothers : literalParts others = (others.map String.ofList).map .text := by
    simp [literalParts, Function.comp_def]
  rw [composedText_eq_map, looseText, dedentParts_literalParts, hdedent, hcontent]
  show (interleave (String.ofList (blanks ++ start)) results (literalParts others)).map strip =
    (interleave (String.ofList start) results ((others.map String.ofList).map .text)).map strip
  rw [String.ofList_append, interleave_append, hothers]
  cases interleave (String.ofList start) results ((others.map String.ofList).map .text) with
  | error cause => rfl
  | ok text => exact congrArg Except.ok (hstrip text)

private theorem weave_eq_interlace {results : List (Except Failure Result)}
    {parts : List (List Char)} (hlength : parts.length = results.length + 1) :
    weave results (parts.map String.ofList) = do
      let texts ← results.mapM textOf
      return String.ofList (interlace parts (texts.map String.toList)) := by
  induction results generalizing parts with
  | nil =>
    obtain ⟨part, rfl⟩ := List.length_eq_one_iff.1 hlength
    simp [weave, interleave, interlace]
    rfl
  | cons result results ih =>
    obtain ⟨part, rest, rfl⟩ := List.exists_cons_of_length_eq_add_one hlength
    have hrest : rest.length = results.length + 1 := by simpa using hlength
    have hne : rest.map String.ofList ≠ [] := by
      simpa using List.ne_nil_of_length_eq_add_one hrest
    rw [List.map_cons, weave_cons _ _ _ hne, ih hrest, List.mapM_cons]
    simp only [bind_assoc, pure_bind, List.map_cons, interlace, String.ofList_append,
      String.ofList_toList]

/-- A statement is composed as if the leading blank lines of its first part were taken away before
anything is dedented: the indentation of what remains goes from every line of every part, the texts
of the values go between the parts, and the whole is trimmed. It fails where a value has no text. -/
theorem compose_eq_dedentContent (first : List Char) (rest : List (List Char))
    {results : List (Except Failure Result)} (hlength : results.length = rest.length)
    (context : Context) :
    compose (literalParts (first :: rest)) results context = do
      let texts ← results.mapM textOf
      let loose := interlace (dedentContent (first :: rest)) (texts.map String.toList)
      return context.composed (boundValues results) (String.ofList (trim loose)) := by
  have hparts : (dedentContent (first :: rest)).length = results.length + 1 := by
    simp [dedentContent, hlength]
  rw [compose_eq_map, composedText_eq_weave, weave_eq_interlace hparts]
  cases results.mapM textOf with
  | error cause => rfl
  | ok texts =>
    show Except.ok (context.composed _ (strip (String.ofList _))) = Except.ok _
    rw [strip, String.toList_ofList]

/-- Blank lines that are shorter and longer than the indentation stand in front of it, and a value
begins with a blank. -/
theorem compose_eq_dedentContent_blankLines :
    let first := "  \n \t    \n    SELECT ".toList
    let rest := ["\n      FROM t".toList, " \n    ".toList]
    let results : List (Except Failure Result) :=
      [.ok { sql := .text " a", bindings := [.int 1] }, .ok { sql := .text "" }]
    results.length = rest.length ∧ compose (literalParts (first :: rest)) results {} =
      .ok { sql := .text "SELECT  a\n  FROM t", bindings := [.int 1] } := by
  intro first rest results
  have hlength : results.length = rest.length := rfl
  have hcontent : dedentContent (first :: rest) =
      ["SELECT ".toList, "\n  FROM t".toList, " \n".toList] := by decide
  have htexts : results.mapM textOf = .ok [" a", ""] := rfl
  have htrim : trim (interlace ["SELECT ".toList, "\n  FROM t".toList, " \n".toList]
      ([" a", ""].map String.toList)) = "SELECT  a\n  FROM t".toList := by decide
  refine ⟨hlength, ?_⟩
  rw [compose_eq_dedentContent first rest hlength, hcontent, htexts]
  show Except.ok (Context.composed {} _ (String.ofList (trim _))) = _
  rw [htrim, String.ofList_toList]
  rfl

/-! ## Stability -/

private theorem dedentParts_of_ne_nil {parts : List (List Char)} (h : parts ≠ []) :
    dedentParts (literalParts parts) = .ok (literalParts (dedent parts)) := by
  obtain ⟨first, rest, rfl⟩ := List.exists_cons_of_ne_nil h
  exact dedentParts_literalParts first rest

private theorem composedText_dedent {parts : List (List Char)} (h : parts ≠ [])
    (results : List (Except Failure Result)) :
    composedText (literalParts (dedent parts)) results =
      composedText (literalParts parts) results := by
  obtain ⟨first, rest, rfl⟩ := List.exists_cons_of_ne_nil h
  obtain ⟨start, others, hdedent⟩ :=
    List.exists_cons_of_length_eq_add_one (length_dedent (first :: rest))
  have hsame : dedentContent (start :: others) = dedentContent (first :: rest) := by
    rw [← hdedent, dedentContent_dedent]
  rw [hdedent, composedText_eq_weave, composedText_eq_weave, hsame]

private theorem Text.Thins.interlace {originals thinned : List (List Char)}
    (h : List.Forall₂ Thins originals thinned) (texts : List (List Char)) :
    Thins (interlace originals texts) (interlace thinned texts) := by
  induction h generalizing texts with
  | nil => exact .refl _
  | cons hpart hrest ih =>
    cases texts with
    | nil => exact hpart.append (ih [])
    | cons text texts => exact hpart.append ((Thins.refl text).append (ih texts))

/-- Dedented parts compose to what the parts compose to, and parts that were dedented twice are not
changed any more. What is taken out of parts are blank characters. A statement is what is left of
its parts with the texts of the values between them as they are, trimmed at its ends of blank
characters alone, so that it keeps all that can be seen. -/
theorem compose_dedent_stable {parts : List (List Char)} (hne : parts ≠ []) :
    ∃ once twice, dedentParts (literalParts parts) = .ok once ∧ dedentParts once = .ok twice ∧
      dedentParts twice = .ok twice ∧
      (∀ results context, compose once results context =
        compose (literalParts parts) results context) ∧
      ∀ (results : List (Except Failure Result)) (texts : List String) (context : Context),
        results.length + 1 = parts.length → results.mapM textOf = .ok texts →
        ∃ kept text front back, twice = literalParts kept ∧ List.Forall₂ Thins parts kept ∧
          compose (literalParts parts) results context =
            .ok (context.composed (boundValues results) (String.ofList text)) ∧
          interlace kept (texts.map String.toList) = front ++ (text ++ back) ∧
          (∀ c ∈ front, isBlank c = true) ∧ (∀ c ∈ back, isBlank c = true) ∧
          visible text = visible (interlace parts (texts.map String.toList)) := by
  have hdedent : dedent parts ≠ [] := by
    rw [ne_eq, ← List.length_eq_zero_iff, length_dedent, List.length_eq_zero_iff]
    exact hne
  have hcontent : dedentContent parts ≠ [] := by
    rw [← dedent_dedent, ne_eq, ← List.length_eq_zero_iff, length_dedent, List.length_eq_zero_iff]
    exact hdedent
  refine ⟨literalParts (dedent parts), literalParts (dedentContent parts),
    dedentParts_of_ne_nil hne, ?_, ?_, ?_, ?_⟩
  · rw [dedentParts_of_ne_nil hdedent, dedent_dedent]
  · rw [dedentParts_of_ne_nil hcontent, dedent_dedentContent]
  · intro results context
    rw [compose_eq_map, compose_eq_map, composedText_dedent hne]
  · intro results texts context hlength htexts
    obtain ⟨first, rest, rfl⟩ := List.exists_cons_of_ne_nil hne
    have hkept : List.Forall₂ Thins (first :: rest) (dedentContent (first :: rest)) :=
      forall₂_dedentContent _
    have hcompose := compose_eq_dedentContent first rest (Nat.succ.inj hlength) context
    rw [htexts] at hcompose
    obtain ⟨front, back, hfront, hback, htrim⟩ := exists_eq_append_trim
      (interlace (dedentContent (first :: rest)) (texts.map String.toList))
    refine ⟨_, _, front, back, rfl, hkept, hcompose, htrim, hfront, hback, ?_⟩
    have hvisible := (Thins.interlace hkept (texts.map String.toList)).visible
    rw [htrim, visible_append, visible_append, visible_eq_nil hfront, visible_eq_nil hback,
      List.nil_append, List.append_nil] at hvisible
    exact hvisible

/-- A blank line that is longer than the indentation is left by the first dedenting, and a value
begins and ends with blanks. -/
theorem compose_dedent_stable_blankLine :
    let parts := ["    \n  SELECT ".toList, "\n    FROM t".toList]
    let results : List (Except Failure Result) := [.ok { sql := .text "\ta " }]
    (parts ≠ [] ∧ results.length + 1 = parts.length ∧ results.mapM textOf = .ok ["\ta "]) ∧
      ∃ once twice, dedentParts (literalParts parts) = .ok once ∧ dedentParts once = .ok twice ∧
        dedentParts twice = .ok twice ∧
        compose once results {} = compose (literalParts parts) results {} ∧
        ∃ kept text front back, twice = literalParts kept ∧ List.Forall₂ Thins parts kept ∧
          compose (literalParts parts) results {} = .ok { sql := .text (String.ofList text) } ∧
          interlace kept ["\ta ".toList] = front ++ (text ++ back) ∧
          visible text = "SELECTaFROMt".toList := by
  intro parts results
  have hne : parts ≠ [] := List.cons_ne_nil _ _
  have hlength : results.length + 1 = parts.length := rfl
  have htexts : results.mapM textOf = .ok ["\ta "] := rfl
  have hvisible : visible (interlace parts ["\ta ".toList]) = "SELECTaFROMt".toList := by decide
  obtain ⟨once, twice, honce, htwice, hstable, hsame, htext⟩ := compose_dedent_stable hne
  obtain ⟨kept, text, front, back, hkept, hthins, hcompose, htrim, _, _, hseen⟩ :=
    htext results _ {} hlength htexts
  exact ⟨⟨hne, hlength, htexts⟩, once, twice, honce, htwice, hstable, hsame results {}, kept, text,
    front, back, hkept, hthins, hcompose, htrim, hseen.trans hvisible⟩

end SqlFragments
