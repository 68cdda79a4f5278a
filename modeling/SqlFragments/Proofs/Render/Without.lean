import SqlFragments.Proofs.Outcome
import SqlFragments.Proofs.Text.Indent
import SqlFragments.Render.Evaluate

/-!
# Texts without a character

Joining, dedenting and trimming put no character into a text that its parts do not hold, but for
line ends. So what a reader of the statement looks for, a mark or an apostrophe, stands only where
it was written.
-/

namespace SqlFragments

open Outcome Text

variable {c : Char}

def Value.isWithout (c : Char) : Value → Bool
  | text s => !s.toList.contains c
  | _ => false

theorem Value.isWithout_iff {value : Value} :
    value.isWithout c = true ↔ ∃ s, value = .text s ∧ c ∉ s.toList := by
  cases value <;> simp [isWithout]

theorem exists_texts {pieces : List Value} (hpieces : ∀ piece ∈ pieces, piece.isWithout c = true) :
    ∃ texts : List String, pieces = texts.map .text ∧ ∀ s ∈ texts, c ∉ s.toList := by
  induction pieces with
  | nil => exact ⟨[], rfl, fun _ hs => by cases hs⟩
  | cons piece pieces ih =>
    rw [List.forall_mem_cons] at hpieces
    obtain ⟨s, rfl, hs⟩ := Value.isWithout_iff.1 hpieces.1
    obtain ⟨texts, rfl, htexts⟩ := ih hpieces.2
    refine ⟨s :: texts, rfl, ?_⟩
    rw [List.forall_mem_cons]
    exact ⟨hs, htexts⟩

theorem Value.text_of_isSome {value : Value} (h : value.text?.isSome = true) :
    ∃ s, value = .text s := by
  cases value with
  | text s => exact ⟨s, rfl⟩
  | _ => cases h

theorem Value.texts_of_forall {values : List Value}
    (h : ∀ value ∈ values, value.text?.isSome = true) :
    ∃ texts : List String, values = texts.map .text := by
  induction values with
  | nil => exact ⟨[], rfl⟩
  | cons value rest ih =>
    rw [List.forall_mem_cons] at h
    obtain ⟨s, rfl⟩ := Value.text_of_isSome h.1
    obtain ⟨texts, rfl⟩ := ih h.2
    exact ⟨s :: texts, rfl⟩

theorem text_of_joinWith {sep : String} {pieces : List Value} {written : Value}
    (h : joinWith (.text sep) pieces = .ok written) : ∃ s, written = .text s := by
  rw [joinWith] at h
  split at h
  · cases h
    exact ⟨_, rfl⟩
  · cases h

theorem joinWith_texts (sep : String) (texts : List String) :
    joinWith (.text sep) (texts.map .text) = .ok (.text (String.intercalate sep texts)) := by
  have htexts : (texts.map Value.text).mapM Value.text? = some texts := by
    induction texts with
    | nil => rfl
    | cons s texts ih => simp [List.mapM_cons, Value.text?, ih]
  rw [joinWith, htexts]

theorem not_mem_intercalate {sep : String} {texts : List String} (hsep : c ∉ sep.toList)
    (htexts : ∀ s ∈ texts, c ∉ s.toList) : c ∉ (String.intercalate sep texts).toList := by
  rw [String.toList_intercalate]
  intro hc
  rcases mem_intercalate hc with hc | ⟨part, hpart, hc⟩
  · exact hsep hc
  · obtain ⟨s, hs, rfl⟩ := List.mem_map.1 hpart
    exact htexts s hs hc

theorem without_joinWith {separator written : Value} {pieces : List Value}
    (hsep : separator.isWithout c = true) (hpieces : ∀ piece ∈ pieces, piece.isWithout c = true)
    (h : joinWith separator pieces = .ok written) : written.isWithout c = true := by
  obtain ⟨sep, rfl, hnone⟩ := Value.isWithout_iff.1 hsep
  obtain ⟨texts, rfl, htexts⟩ := exists_texts hpieces
  rw [joinWith_texts] at h
  cases h
  exact Value.isWithout_iff.2 ⟨_, rfl, not_mem_intercalate hnone htexts⟩

theorem without_mapM {write : Value → Outcome Value} {columns written : List Value}
    (hwrite : ∀ column ∈ columns, ∀ w, (write column).answer = .ok w → w.isWithout c = true)
    (h : (columns.mapM write).answer = .ok written) : ∀ w ∈ written, w.isWithout c = true := by
  intro w hw
  obtain ⟨column, hcolumn, hwritten⟩ := exists_of_forall₂ (answer_mapM_eq_ok.1 h).flip w hw
  exact hwrite column hcolumn w hwritten

theorem without_dedentParts (hc : c ≠ '\n') {strings parts : List Value}
    (hstrings : ∀ part ∈ strings, part.isWithout c = true) (h : dedentParts strings = .ok parts) :
    ∀ part ∈ parts, part.isWithout c = true := by
  obtain ⟨texts, rfl, htexts⟩ := exists_texts hstrings
  cases texts with
  | nil => cases h
  | cons first rest =>
    rw [dedentParts_text] at h
    cases h
    intro part hpart
    obtain ⟨cs, hcs, rfl⟩ := List.mem_map.1 hpart
    apply Value.isWithout_iff.2
    refine ⟨_, rfl, ?_⟩
    rw [String.toList_ofList]
    intro hmem
    obtain ⟨original, horiginal, hmem⟩ := mem_of_mem_dedent hc hcs hmem
    obtain ⟨s, hs, rfl⟩ := List.mem_map.1 horiginal
    exact htexts s hs hmem

theorem not_mem_strip {s : String} (h : c ∉ s.toList) : c ∉ (strip s).toList := by
  rw [toList_strip, trim, dropEndWhile, List.mem_reverse]
  intro hc
  have hfront := List.mem_reverse.1 ((List.dropWhile_sublist _).subset hc)
  exact h ((List.dropWhile_sublist _).subset hfront)

theorem not_mem_stripEndSpaces {sep : String} (h : c ∉ sep.toList) :
    c ∉ (stripEndSpaces sep).toList := by
  intro hc
  rw [stripEndSpaces, String.toList_ofList, dropEndWhile, List.mem_reverse] at hc
  exact h (List.mem_reverse.1 ((List.dropWhile_sublist _).subset hc))

end SqlFragments
