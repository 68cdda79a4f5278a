import SqlFragments.Text.Indent

/-!
# Characters of dedented texts

Taking indentation away adds no character to a text.
-/

namespace SqlFragments.Text

theorem mem_intercalate {sep : List Char} {parts : List (List Char)} {c : Char}
    (h : c ∈ sep.intercalate parts) : c ∈ sep ∨ ∃ part ∈ parts, c ∈ part := by
  induction parts with
  | nil => simp at h
  | cons part parts ih =>
    cases parts with
    | nil =>
      rw [List.intercalate_singleton] at h
      exact .inr ⟨part, List.mem_cons_self, h⟩
    | cons next parts =>
      rw [List.intercalate_cons_cons, List.mem_append, List.mem_append] at h
      rcases h with (h | h) | h
      · exact .inr ⟨part, List.mem_cons_self, h⟩
      · exact .inl h
      · rcases ih h with h | ⟨other, hother, h⟩
        · exact .inl h
        · exact .inr ⟨other, List.mem_cons_of_mem part hother, h⟩

theorem mem_intercalate_of_mem {sep part : List Char} {parts : List (List Char)} {c : Char}
    (hpart : part ∈ parts) (hc : c ∈ part) : c ∈ sep.intercalate parts := by
  induction parts with
  | nil => cases hpart
  | cons first parts ih =>
    cases parts with
    | nil =>
      rw [List.mem_singleton.1 hpart] at hc
      rwa [List.intercalate_singleton]
    | cons next parts =>
      rw [List.intercalate_cons_cons, List.mem_append, List.mem_append]
      rcases List.mem_cons.1 hpart with rfl | hpart
      · exact .inl (.inl hc)
      · exact .inr (ih hpart)

private theorem mem_of_mem_dedentLine {indent line : List Char} {c : Char}
    (h : c ∈ dedentLine indent line) : c ∈ line := by
  unfold dedentLine at h
  split at h
  · exact List.mem_of_mem_drop h
  · exact h

theorem mem_of_mem_dedentLines {indent cs : List Char} {c : Char} (hc : c ≠ '\n')
    (h : c ∈ dedentLines indent cs) : c ∈ cs := by
  rcases mem_intercalate h with h | ⟨_, hline, h⟩
  · exact absurd (List.mem_singleton.1 h) hc
  · obtain ⟨line, hsplit, rfl⟩ := List.mem_map.1 hline
    have hmem : c ∈ ['\n'].intercalate (cs.splitOn '\n') :=
      mem_intercalate_of_mem hsplit (mem_of_mem_dedentLine h)
    rwa [List.intercalate_splitOn] at hmem

private theorem mem_of_mem_dropBlankLinesFrom {line cs : List Char} {c : Char}
    (hsub : ∀ c ∈ cs, c ∈ line) (h : c ∈ dropBlankLinesFrom line cs) : c ∈ line := by
  induction cs generalizing line with
  | nil => exact h
  | cons first rest ih =>
    have hrest : ∀ c ∈ rest, c ∈ line := fun c hc => hsub c (List.mem_cons_of_mem first hc)
    rw [dropBlankLinesFrom] at h
    split at h
    · exact hrest c (ih (fun _ hc => hc) h)
    · split at h
      · exact ih hrest h
      · exact h

theorem mem_of_mem_dropBlankLines {cs : List Char} {c : Char} (h : c ∈ dropBlankLines cs) :
    c ∈ cs :=
  mem_of_mem_dropBlankLinesFrom (fun _ hc => hc) h

theorem mem_of_mem_dedent {parts : List (List Char)} {part : List Char} {c : Char} (hc : c ≠ '\n')
    (hpart : part ∈ dedent parts) (h : c ∈ part) : ∃ original ∈ parts, c ∈ original := by
  cases parts with
  | nil => cases hpart
  | cons first rest =>
    rw [dedent] at hpart
    split at hpart
    · rcases List.mem_cons.1 hpart with rfl | hpart
      · exact ⟨first, List.mem_cons_self, mem_of_mem_dropBlankLines h⟩
      · exact ⟨part, List.mem_cons_of_mem first hpart, h⟩
    · obtain ⟨original, horiginal, rfl⟩ := List.mem_map.1 hpart
      exact ⟨original, horiginal, mem_of_mem_dedentLines hc h⟩

end SqlFragments.Text
