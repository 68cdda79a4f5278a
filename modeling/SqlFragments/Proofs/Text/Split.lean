/-!
# Texts between separators

A text that is split at a character has pieces without that character, and pieces that are put
together in two rows come one row behind the other.
-/

namespace SqlFragments.Text

theorem not_mem_of_mem_splitOn {separator : Char} (cs : List Char) :
    ∀ piece ∈ cs.splitOn separator, separator ∉ piece := by
  induction cs with
  | nil => simp
  | cons c cs ih =>
    obtain ⟨piece, pieces, hsplit⟩ := List.exists_cons_of_ne_nil (List.splitOn_ne_nil separator cs)
    rw [hsplit, List.forall_mem_cons] at ih
    rw [List.splitOn_cons_eq_if_modifyHead, hsplit]
    by_cases hc : c = separator
    · simpa [hc] using ih
    · have hne : separator ≠ c := Ne.symm hc
      simpa [hc, hne] using ih

theorem intercalate_append (sep : List Char) {front back : List (List Char)} (hfront : front ≠ [])
    (hback : back ≠ []) :
    sep.intercalate (front ++ back) = sep.intercalate front ++ (sep ++ sep.intercalate back) := by
  induction front with
  | nil => exact absurd rfl hfront
  | cons piece rest ih =>
    cases rest with
    | nil =>
      rw [List.singleton_append, List.intercalate_cons_of_ne_nil hback, List.intercalate_singleton,
        List.append_assoc]
    | cons next rest =>
      rw [List.cons_append, List.cons_append, List.intercalate_cons_cons, List.intercalate_cons_cons,
        ← List.cons_append, ih (List.cons_ne_nil next rest)]
      simp only [List.append_assoc]

end SqlFragments.Text
