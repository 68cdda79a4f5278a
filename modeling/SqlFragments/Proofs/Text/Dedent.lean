import Mathlib.Data.List.Forall2
import SqlFragments.Proofs.Text.Reindent

/-!
# Dedented parts

Where there is an indentation, dedenting keeps the blank lines in front of it. Whether these lines
go first or last makes no difference: dedenting twice comes to the parts that are dedented without
their leading blank lines, and from then on dedenting changes nothing. No part loses a character
that can be seen.
-/

namespace SqlFragments.Text

/-- Lines without the leading ones that hold only spaces and tabs. No line end follows the last
line, so that it stays. -/
def contentLines : List (List Char) → List (List Char)
  | line :: next :: rest =>
    if line.all isIndent then contentLines (next :: rest) else line :: next :: rest
  | lines => lines

def content (cs : List Char) : List Char :=
  ['\n'].intercalate (contentLines (cs.splitOn '\n'))

/-- Takes the indentation of the first part away from every line of every part, after the leading
blank lines of the first part. -/
def dedentContent : List (List Char) → List (List Char)
  | [] => []
  | first :: rest => (content first :: rest).map (dedentLines ((content first).takeWhile isIndent))

variable {indent : List Char}

/-! ## Content -/

theorem contentLines_ne_nil {lines : List (List Char)} (h : lines ≠ []) :
    contentLines lines ≠ [] := by
  fun_induction contentLines lines with
  | case1 line next rest hblank ih => exact ih (List.cons_ne_nil next rest)
  | case2 | case3 => exact h

private theorem mem_of_mem_contentLines {lines : List (List Char)} {line : List Char}
    (h : line ∈ contentLines lines) : line ∈ lines := by
  fun_induction contentLines lines with
  | case1 first next rest hblank ih => exact List.mem_cons_of_mem first (ih h)
  | case2 | case3 => exact h

private theorem contentLines_contentLines (lines : List (List Char)) :
    contentLines (contentLines lines) = contentLines lines := by
  fun_induction contentLines lines with
  | case1 line next rest hblank ih => exact ih
  | case2 line next rest hline => rw [contentLines, if_neg hline]
  | case3 lines hshort => rw [contentLines.eq_2 lines hshort]

theorem splitOn_content (cs : List Char) :
    (content cs).splitOn '\n' = contentLines (cs.splitOn '\n') :=
  List.splitOn_intercalate '\n'
    (fun line hline => not_mem_of_mem_splitOn cs line (mem_of_mem_contentLines hline))
    (contentLines_ne_nil (List.splitOn_ne_nil '\n' cs))

theorem content_content (cs : List Char) : content (content cs) = content cs := by
  rw [content, splitOn_content, contentLines_contentLines, content]

private theorem exists_intercalate_eq (lines : List (List Char)) :
    ∃ blanks, (∀ c ∈ blanks, isBlank c = true) ∧
      ['\n'].intercalate lines = blanks ++ ['\n'].intercalate (contentLines lines) := by
  fun_induction contentLines lines with
  | case1 line next rest hblank ih =>
    obtain ⟨blanks, hblanks, heq⟩ := ih
    refine ⟨line ++ '\n' :: blanks, ?_, ?_⟩
    · rw [List.forall_mem_append, List.forall_mem_cons]
      exact ⟨fun c hc => isBlank_of_isIndent (List.all_eq_true.1 hblank c hc), rfl, hblanks⟩
    · rw [List.intercalate_cons_cons, heq, List.append_assoc, List.append_assoc]
      rfl
  | case2 | case3 => exact ⟨[], (fun _ h => by cases h), rfl⟩

theorem exists_eq_append_content (cs : List Char) :
    ∃ blanks, (∀ c ∈ blanks, isBlank c = true) ∧ cs = blanks ++ content cs := by
  have h := exists_intercalate_eq (cs.splitOn '\n')
  rwa [List.intercalate_splitOn] at h

private theorem splitOn_append_of_not_mem {front : List Char} (h : '\n' ∉ front) (cs : List Char) :
    (front ++ cs).splitOn '\n' = (cs.splitOn '\n').modifyHead (front ++ ·) := by
  induction front with
  | nil => exact (congrFun List.modifyHead_id _).symm
  | cons c front ih =>
    rw [List.mem_cons, not_or] at h
    have hc : (c == '\n') = false := beq_false_of_ne (Ne.symm h.1)
    rw [List.cons_append, List.splitOn_cons_eq_if_modifyHead, hc, ih h.2,
      List.modifyHead_modifyHead]
    rfl

private theorem dropBlankLinesFrom_eq_content {seen : List Char}
    (hseen : ∀ c ∈ seen, isIndent c = true) (cs : List Char) :
    dropBlankLinesFrom (seen ++ cs) cs = content (seen ++ cs) := by
  have hbreak : '\n' ∉ seen := fun h => absurd (hseen _ h) (by decide)
  induction cs generalizing seen with
  | nil =>
    rw [List.append_nil, content, List.splitOn_eq_singleton hbreak]
    exact (List.intercalate_singleton).symm
  | cons c cs ih =>
    obtain ⟨next, rest, hsplit⟩ := List.exists_cons_of_ne_nil (List.splitOn_ne_nil '\n' cs)
    rw [dropBlankLinesFrom]
    split
    · next hc =>
      have hall : seen.all isIndent = true := List.all_eq_true.2 hseen
      have hcs : dropBlankLinesFrom ([] ++ cs) cs = content ([] ++ cs) :=
        ih (fun _ h => by cases h) List.not_mem_nil
      rw [List.nil_append] at hcs
      rw [hcs, hc, content, content, List.splitOn_append_cons_self_of_not_mem hbreak, hsplit,
        contentLines, if_pos hall]
    · next hc =>
      split
      · next hspace =>
        have hmore : ∀ d ∈ seen ++ [c], isIndent d = true := by
          rw [List.forall_mem_append, List.forall_mem_singleton]
          exact ⟨hseen, hspace⟩
        have hcs := ih hmore (fun h => absurd (hmore _ h) (by decide))
        rwa [← List.append_cons] at hcs
      · next hvisible =>
        -- The present line has content, so that all lines from it on stay.
        have hne : (c == '\n') = false := beq_false_of_ne hc
        have hline : (seen ++ c :: next).all isIndent = false := by simp [hvisible]
        have hlines : (seen ++ c :: cs).splitOn '\n' = (seen ++ c :: next) :: rest := by
          rw [splitOn_append_of_not_mem hbreak, List.splitOn_cons_eq_if_modifyHead, hne, hsplit]
          rfl
        have hstays : contentLines ((seen ++ c :: next) :: rest) = (seen ++ c :: next) :: rest := by
          cases rest with
          | nil => rfl
          | cons line rest => rw [contentLines, hline, if_neg Bool.false_ne_true]
        rw [content, hlines, hstays, ← hlines, List.intercalate_splitOn]

theorem dropBlankLines_eq_content (cs : List Char) : dropBlankLines cs = content cs :=
  @dropBlankLinesFrom_eq_content [] (fun _ h => by cases h) cs

theorem indentation_eq (first : List Char) :
    indentation first = (content first).takeWhile isIndent := by
  rw [indentation, dropBlankLines_eq_content]

/-! ## Dedenting line by line -/

private theorem dedentLine_nil (line : List Char) : dedentLine [] line = line := by
  simp [dedentLine]

private theorem dedentLines_nil (cs : List Char) : dedentLines [] cs = cs := by
  have hlines : (cs.splitOn '\n').map (dedentLine []) = cs.splitOn '\n' := by
    rw [List.map_congr_left fun line _ => dedentLine_nil line, List.map_id']
  rw [dedentLines, hlines, List.intercalate_splitOn]

theorem dedentLine_eq_or (indent line : List Char) :
    line = indent ++ dedentLine indent line ∨ line = dedentLine indent line := by
  unfold dedentLine
  split
  · next h =>
    obtain ⟨tail, rfl⟩ := List.isPrefixOf_iff_prefix.1 h
    rw [List.drop_left]
    exact .inl rfl
  · exact .inr rfl

theorem dedentLine_sublist (indent line : List Char) : (dedentLine indent line).Sublist line := by
  unfold dedentLine
  split
  · exact List.drop_sublist _ line
  · exact List.Sublist.refl line

section

variable (hindent : ∀ c ∈ indent, isIndent c = true)

include hindent

private theorem all_dedentLine (line : List Char) :
    (dedentLine indent line).all isIndent = line.all isIndent := by
  rcases dedentLine_eq_or indent line with h | h
  · conv_rhs => rw [h, List.all_append, List.all_eq_true.2 hindent, Bool.true_and]
  · rw [← h]

private theorem contentLines_map_dedentLine (lines : List (List Char)) :
    contentLines (lines.map (dedentLine indent)) =
      (contentLines lines).map (dedentLine indent) := by
  fun_induction contentLines lines with
  | case1 line next rest hblank ih =>
    rw [List.map_cons, List.map_cons, contentLines, all_dedentLine hindent, if_pos hblank]
    exact ih
  | case2 line next rest hline =>
    rw [List.map_cons, List.map_cons, contentLines, all_dedentLine hindent, if_neg hline]
  | case3 lines hshort =>
    match lines with
    | [] | [line] => rfl
    | line :: next :: rest => exact absurd rfl (hshort line next rest)

omit hindent in
theorem splitOn_dedentLines (cs : List Char) :
    (dedentLines indent cs).splitOn '\n' = (cs.splitOn '\n').map (dedentLine indent) := by
  apply List.splitOn_intercalate
  · intro piece hpiece
    obtain ⟨line, hline, rfl⟩ := List.mem_map.1 hpiece
    exact fun h => not_mem_of_mem_splitOn cs line hline ((dedentLine_sublist indent line).subset h)
  · simp

theorem content_dedentLines (cs : List Char) :
    content (dedentLines indent cs) = dedentLines indent (content cs) := by
  rw [content, splitOn_dedentLines, contentLines_map_dedentLine hindent, dedentLines,
    splitOn_content]

end

private theorem takeWhile_append_break (line behind : List Char) :
    (line ++ '\n' :: behind).takeWhile isIndent = line.takeWhile isIndent := by
  induction line with
  | nil => rfl
  | cons c line ih => rw [List.cons_append, List.takeWhile_cons, List.takeWhile_cons, ih]

private theorem takeWhile_intercalate (line : List Char) (rest : List (List Char)) :
    (['\n'].intercalate (line :: rest)).takeWhile isIndent = line.takeWhile isIndent := by
  cases rest with
  | nil => rw [List.intercalate_singleton]
  | cons next rest =>
    rw [List.intercalate_cons_cons, List.append_assoc, List.singleton_append,
      takeWhile_append_break]

private theorem takeWhile_dropWhile_self (line : List Char) :
    (line.dropWhile isIndent).takeWhile isIndent = [] := by
  induction line with
  | nil => rfl
  | cons c line ih =>
    rw [List.dropWhile_cons]
    split
    · exact ih
    · next hc => exact List.takeWhile_cons_of_neg hc

private theorem takeWhile_dedentLine (line : List Char) :
    (dedentLine (line.takeWhile isIndent) line).takeWhile isIndent = [] := by
  have hrest := @dedentLine_append (line.takeWhile isIndent) (line.dropWhile isIndent)
  rw [List.takeWhile_append_dropWhile] at hrest
  rw [hrest, takeWhile_dropWhile_self]

theorem takeWhile_dedentLines (cs : List Char) :
    (dedentLines (cs.takeWhile isIndent) cs).takeWhile isIndent = [] := by
  obtain ⟨line, rest, hsplit⟩ := List.exists_cons_of_ne_nil (List.splitOn_ne_nil '\n' cs)
  have hcs : cs = ['\n'].intercalate (line :: rest) := by rw [← hsplit, List.intercalate_splitOn]
  have hindent : cs.takeWhile isIndent = line.takeWhile isIndent := by
    rw [hcs, takeWhile_intercalate]
  rw [hindent, dedentLines, hsplit, List.map_cons, takeWhile_intercalate, takeWhile_dedentLine]

/-! ## Dedenting twice -/

theorem dedent_of_takeWhile_eq_nil {first : List Char}
    (h : (content first).takeWhile isIndent = []) (rest : List (List Char)) :
    dedent (first :: rest) = content first :: rest := by
  rw [dedent, indentation_eq, h, dropBlankLines_eq_content]

theorem dedent_of_takeWhile_ne_nil {first : List Char}
    (h : (content first).takeWhile isIndent ≠ []) (rest : List (List Char)) :
    dedent (first :: rest) =
      (first :: rest).map (dedentLines ((content first).takeWhile isIndent)) := by
  rw [dedent, indentation_eq]
  split
  · next hnil => exact absurd hnil h
  · rfl

private theorem exists_dedent_eq (first : List Char) (rest : List (List Char)) :
    ∃ start others, dedent (first :: rest) = start :: others ∧
      (content start).takeWhile isIndent = [] ∧
      dedentContent (first :: rest) = content start :: others := by
  have hindent : ∀ c ∈ (content first).takeWhile isIndent, isIndent c = true :=
    fun c hc => List.mem_takeWhile_imp hc
  by_cases hnone : (content first).takeWhile isIndent = []
  · have hsame : (content first :: rest).map (dedentLines []) = content first :: rest := by
      rw [List.map_congr_left fun part _ => dedentLines_nil part, List.map_id']
    refine ⟨content first, rest, dedent_of_takeWhile_eq_nil hnone rest, ?_, ?_⟩
    · rw [content_content, hnone]
    · rw [content_content, dedentContent, hnone, hsame]
  · have hcontent := content_dedentLines hindent first
    refine ⟨_, _, dedent_of_takeWhile_ne_nil hnone rest, ?_, ?_⟩
    · rw [hcontent, takeWhile_dedentLines]
    · rw [hcontent]
      rfl

theorem dedent_dedent (parts : List (List Char)) : dedent (dedent parts) = dedentContent parts := by
  cases parts with
  | nil => rfl
  | cons first rest =>
    obtain ⟨start, others, hdedent, hnone, hcontent⟩ := exists_dedent_eq first rest
    rw [hdedent, hcontent, dedent_of_takeWhile_eq_nil hnone]

/-- The blank lines that dedenting may leave are all by which it differs from dedenting the
content. -/
theorem exists_dedent_eq_append (first : List Char) (rest : List (List Char)) :
    ∃ blanks start others, (∀ c ∈ blanks, isBlank c = true) ∧
      dedent (first :: rest) = (blanks ++ start) :: others ∧
      dedentContent (first :: rest) = start :: others := by
  obtain ⟨start, others, hdedent, _, hcontent⟩ := exists_dedent_eq first rest
  obtain ⟨blanks, hblanks, hstart⟩ := exists_eq_append_content start
  exact ⟨blanks, content start, others, hblanks, by rw [hdedent, ← hstart], hcontent⟩

theorem dedent_dedentContent (parts : List (List Char)) :
    dedent (dedentContent parts) = dedentContent parts := by
  cases parts with
  | nil => rfl
  | cons first rest =>
    obtain ⟨start, others, _, hnone, hcontent⟩ := exists_dedent_eq first rest
    rw [← content_content] at hnone
    rw [hcontent, dedent_of_takeWhile_eq_nil hnone, content_content]

theorem dedentContent_dedent (parts : List (List Char)) :
    dedentContent (dedent parts) = dedentContent parts :=
  calc dedentContent (dedent parts) = dedent (dedent (dedent parts)) := (dedent_dedent _).symm
    _ = dedent (dedentContent parts) := by rw [dedent_dedent parts]
    _ = dedentContent parts := dedent_dedentContent parts

/-! ## Visible characters -/

def visible (cs : List Char) : List Char := cs.filter fun c => !isBlank c

@[simp]
theorem visible_append (cs ds : List Char) : visible (cs ++ ds) = visible cs ++ visible ds :=
  List.filter_append cs ds

theorem visible_eq_nil {cs : List Char} (h : ∀ c ∈ cs, isBlank c = true) : visible cs = [] := by
  rw [visible, List.filter_eq_nil_iff]
  intro c hc
  simp [h c hc]

structure Thins (original thinned : List Char) : Prop where
  sublist : thinned.Sublist original
  visible : visible thinned = visible original

namespace Thins

theorem refl (cs : List Char) : Thins cs cs := ⟨.refl cs, rfl⟩

theorem trans {first second third : List Char} (h : Thins first second) (h' : Thins second third) :
    Thins first third :=
  ⟨h'.sublist.trans h.sublist, h'.visible.trans h.visible⟩

theorem append {first second thinned thinned' : List Char} (h : Thins first thinned)
    (h' : Thins second thinned') : Thins (first ++ second) (thinned ++ thinned') where
  sublist := h.sublist.append h'.sublist
  visible := by rw [visible_append, visible_append, h.visible, h'.visible]

theorem of_blank {blanks : List Char} (h : ∀ c ∈ blanks, isBlank c = true) (cs : List Char) :
    Thins (blanks ++ cs) cs where
  sublist := List.sublist_append_right blanks cs
  visible := by rw [visible_append, visible_eq_nil h, List.nil_append]

theorem intercalate (separator : List Char) {originals thinned : List (List Char)}
    (h : List.Forall₂ Thins originals thinned) :
    Thins (separator.intercalate originals) (separator.intercalate thinned) := by
  induction h with
  | nil => exact .refl _
  | cons hfirst hrest ih =>
    cases hrest with
    | nil => simpa using hfirst
    | cons =>
      rw [List.intercalate_cons_cons, List.intercalate_cons_cons]
      exact (hfirst.append (.refl separator)).append ih

end Thins

theorem thins_dedentLines (hindent : ∀ c ∈ indent, isIndent c = true) (cs : List Char) :
    Thins cs (dedentLines indent cs) := by
  have hlines : List.Forall₂ Thins (cs.splitOn '\n')
      ((cs.splitOn '\n').map (dedentLine indent)) := by
    rw [List.forall₂_map_right_iff, List.forall₂_same]
    intro line _
    rcases dedentLine_eq_or indent line with h | h
    · have hblank := Thins.of_blank (fun c hc => isBlank_of_isIndent (hindent c hc))
        (dedentLine indent line)
      rwa [← h] at hblank
    · rw [← h]
      exact .refl line
  have hthins := Thins.intercalate ['\n'] hlines
  rwa [List.intercalate_splitOn] at hthins

theorem thins_content (cs : List Char) : Thins cs (content cs) := by
  obtain ⟨blanks, hblanks, hcs⟩ := exists_eq_append_content cs
  have hthins := Thins.of_blank hblanks (content cs)
  rwa [← hcs] at hthins

theorem forall₂_dedentContent (parts : List (List Char)) :
    List.Forall₂ Thins parts (dedentContent parts) := by
  cases parts with
  | nil => exact .nil
  | cons first rest =>
    have hlines : ∀ cs, Thins cs (dedentLines ((content first).takeWhile isIndent) cs) :=
      thins_dedentLines fun c hc => List.mem_takeWhile_imp hc
    refine .cons ((thins_content first).trans (hlines _)) ?_
    rw [List.forall₂_map_right_iff, List.forall₂_same]
    exact fun part _ => hlines part

theorem exists_eq_append_trim (cs : List Char) :
    ∃ front back, (∀ c ∈ front, isBlank c = true) ∧ (∀ c ∈ back, isBlank c = true) ∧
      cs = front ++ (trim cs ++ back) := by
  have hback := List.takeWhile_append_dropWhile (p := isBlank) (l := (cs.dropWhile isBlank).reverse)
  refine ⟨cs.takeWhile isBlank, ((cs.dropWhile isBlank).reverse.takeWhile isBlank).reverse,
    fun c hc => List.mem_takeWhile_imp hc, fun c hc => ?_, ?_⟩
  · exact List.mem_takeWhile_imp (List.mem_reverse.1 hc)
  · rw [trim, dropEndWhile, ← List.reverse_append, hback, List.reverse_reverse,
      List.takeWhile_append_dropWhile]

end SqlFragments.Text
