import SqlFragments.Proofs.Literal.Tight
import SqlFragments.Proofs.Render.Lines
import SqlFragments.Proofs.Render.Splice

/-!
# Literals in statements

A literal that is written into a statement is there in full. Trimming takes only what is blank in
front of it and behind it, dedenting leaves it where it is, lines have it among their texts, and a
clause is not left out around it.
-/

namespace SqlFragments

open Outcome Text

/-! ## One result among others -/

theorem interleave_around {inner : Result} {s : String} (hinner : inner.sql = .text s)
    {before after : List (Except Failure Result)} {first : String} {rest : List Value}
    {text : String} (h : interleave first (before ++ .ok inner :: after) rest = .ok text) :
    ∃ part front back, rest[before.length]? = some (.text part) ∧
      interleave first before rest = .ok front ∧
      interleave part after (rest.drop (before.length + 1)) = .ok back ∧
      text = front ++ s ++ back := by
  induction before generalizing first rest with
  | nil =>
    cases rest with
    | nil => cases h
    | cons part rest =>
      simp only [List.nil_append, interleave, hinner] at h
      cases part with
      | text part =>
        dsimp only at h
        rw [interleave_append, interleave_append] at h
        obtain ⟨behind, hbehind, rfl⟩ := Outcome.map_eq_ok.1 h
        obtain ⟨back, hback, rfl⟩ := Outcome.map_eq_ok.1 hbehind
        exact ⟨part, first, back, rfl, rfl, hback, (String.append_assoc ..).symm⟩
      | _ => cases h
  | cons result before ih =>
    cases result with
    | error cause => cases h
    | ok result =>
      cases rest with
      | nil => cases h
      | cons part rest =>
        simp only [List.cons_append, interleave] at h ⊢
        split at h
        · next a b ha =>
          obtain ⟨part, front, back, hpart, hfront, hback, htext⟩ := ih h
          exact ⟨part, front, back, hpart, hfront, hback, htext⟩
        · cases h

/-! ## What a text is in a statement -/

/-- A text that is not changed by anything that statements are put together with, and that is not
left out. -/
structure Stands (s : String) : Prop where
  /-- Trimming takes only the blanks in front of what is in front, and those behind what is
  behind. -/
  trim (front back : List Char) : Text.trim (front ++ s.toList ++ back) =
    front.dropWhile isBlank ++ s.toList ++ dropEndWhile isBlank back
  /-- Dedenting a text of many lines leaves it where the dedented lines in front of it end. -/
  dedent {indent : List Char} (hindent : ∀ c ∈ indent, isIndent c = true)
    (front back : List Char) : ∃ behind, dedentLines indent (front ++ s.toList ++ back) =
      dedentLines indent front ++ s.toList ++ behind
  /-- A composition with it among the results has it in full, and only what stands around it is
  dedented and trimmed. -/
  compose {strings : List Value} {before after : List (Except Failure Result)}
    {inner result : Result} {context : Context} (hinner : inner.sql = .text s)
    (h : SqlFragments.compose strings (before ++ .ok inner :: after) context = .ok result) :
    ∃ first rest part front back, dedentParts strings = .ok (.text first :: rest) ∧
      rest[before.length]? = some (.text part) ∧ interleave first before rest = .ok front ∧
      interleave part after (rest.drop (before.length + 1)) = .ok back ∧
      result.sql = .text (String.ofList (front.toList.dropWhile isBlank ++ s.toList ++
        dropEndWhile isBlank back.toList))
  /-- A clause around it has its wording. -/
  clause {env : Environment} {context : Context} (hcalls : context.Calls) (strings : List Value)
    {value : Value} {inner : Result} (hinner : inner.sql = .text s)
    (hvalue : (evaluate env context value).answer = .ok (.result inner)) :
    (evaluate env context (.fragment (.clause strings value))).answer =
      (SqlFragments.compose strings [.ok inner] context).map .result
  /-- Lines have it among their texts. -/
  lines {env : Environment} {context : Context} (hcalls : context.Calls) {members : List Value}
    {results : List Result} {before after : List String}
    (hmembers : List.Forall₂ (fun member result =>
      (evaluate env context member).answer = .ok (.result result)) members results)
    (htexts : results.map Result.sql = (before ++ s :: after).map .text) (separator : String) :
    (evaluate env context (.fragment (.lines members (.text separator)))).answer = .ok (.result {
      sql := .text (separator ++ separator.intercalate (lineTexts before ++ s :: lineTexts after) ++
        lineEnd separator (before ++ s :: after))
      bindings := results.flatMap Result.bindings })

theorem lineTexts_around {s : String} (h : s ≠ "") (before after : List String) :
    lineTexts (before ++ s :: after) = lineTexts before ++ s :: lineTexts after := by
  simp [lineTexts, h]

theorem Text.Firm.compose_around {s : String} (hfirm : Firm s.toList) {strings : List Value}
    {before after : List (Except Failure Result)} {inner result : Result} {context : Context}
    (hinner : inner.sql = .text s)
    (h : compose strings (before ++ .ok inner :: after) context = .ok result) :
    ∃ first rest part front back, dedentParts strings = .ok (.text first :: rest) ∧
      rest[before.length]? = some (.text part) ∧ interleave first before rest = .ok front ∧
      interleave part after (rest.drop (before.length + 1)) = .ok back ∧
      result.sql = .text (String.ofList (front.toList.dropWhile isBlank ++ s.toList ++
        dropEndWhile isBlank back.toList)) := by
  obtain ⟨text, htext, rfl⟩ := compose_eq_ok.1 h
  unfold composedText at htext
  obtain ⟨parts, hparts, htext⟩ := Outcome.bind_eq_ok.1 htext
  split at htext
  · next first rest =>
    obtain ⟨loose, hloose, htext⟩ := Outcome.bind_eq_ok.1 htext
    cases htext
    obtain ⟨part, front, back, hpart, hfront, hback, rfl⟩ := interleave_around hinner hloose
    refine ⟨first, rest, part, front, back, hparts, hpart, hfront, hback, ?_⟩
    rw [strip, String.toList_append, String.toList_append, hfirm.trim_around]
  · cases htext

theorem Text.Firm.stands {s : String} (h : Firm s.toList) : Stands s where
  trim := h.trim_around
  dedent := h.dedentLines_around
  compose := h.compose_around
  clause hcalls strings value inner hinner hvalue := by
    have htruthy : inner.sql.isTruthy = true := by
      rw [hinner]
      simpa [Value.isTruthy] using h.ne_nil
    rw [hcalls.answer_clause, hvalue]
    show (surround _ strings inner >>= _) = _
    rw [surround, if_pos htruthy]
    rfl
  lines hcalls members results before after hmembers htexts separator := by
    have hne : s ≠ "" := by simpa using h.ne_nil
    have hshown := lineTexts_around hne before after
    have hsome : lineTexts (before ++ s :: after) ≠ [] := by
      rw [hshown]
      simp
    rw [hcalls.answer_lines hmembers htexts, linesText, if_neg hsome, hshown]

/-! ## Literals -/

/-- Every literal that is written is visible at both ends and on one line, whatever the value and
the time zone, and so it stands in a statement. -/
theorem literal_stands {env : Environment} {value timezone written : Value}
    (h : (literal env value timezone).answer = .ok written) :
    ∃ s, written = .text s ∧ Firm s.toList ∧ Stands s := by
  obtain ⟨s, rfl, hfirm⟩ := firm_of_write h
  exact ⟨s, rfl, hfirm, hfirm.stands⟩

/-- Line breaks, blank texts and empty containers inside of a value are no exception. -/
theorem literal_stands_blank :
    ∃ s, (literal {} (.list 0 [.text "\n", .dict 1 [(.text " ", .object 2 (some "\u2028"))],
        .tuple []]) (.text "+02")).answer = .ok (.text s) ∧ Firm s.toList ∧ Stands s := by
  have h : (literal {} (.list 0 [.text "\n", .dict 1 [(.text " ", .object 2 (some "\u2028"))],
      .tuple []]) (.text "+02")).answer =
        .ok (.text "[\"\\n\",\x7b\" \":\"\\u2028\"\x7d,[]]") := by
    rfl
  obtain ⟨s, hs, hfirm, hstands⟩ := literal_stands h
  exact ⟨s, h.trans (congrArg Except.ok hs), hfirm, hstands⟩

end SqlFragments
