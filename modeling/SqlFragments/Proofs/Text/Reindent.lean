import Mathlib.Data.List.DropRight
import SqlFragments.Proofs.Text.Split
import SqlFragments.Text.Blank
import SqlFragments.Text.Indent

/-!
# Re-indented texts

A run of spaces and tabs put in front of every line of a statement is its common indentation, and
dedenting takes it away again. But dedenting works part by part: the text that goes on behind a
value loses the run too where it begins with it, although no line starts there.
-/

namespace SqlFragments.Text

def indentLines (indent cs : List Char) : List Char :=
  cs.flatMap fun c => if c = '\n' then '\n' :: indent else [c]

/-- The parts of a statement with an indentation in front of each of its lines. Only the first part
starts a line; the others go on behind a value. -/
def reindent (indent : List Char) : List (List Char) → List (List Char)
  | [] => []
  | first :: rest => (indent ++ indentLines indent first) :: rest.map (indentLines indent)

variable {indent : List Char}

/-! ## Lines -/

private theorem indentLines_of_not_mem {line : List Char} (h : '\n' ∉ line) :
    indentLines indent line = line := by
  induction line with
  | nil => rfl
  | cons c line ih =>
    rw [List.mem_cons, not_or] at h
    have hrest := ih h.2
    unfold indentLines at hrest ⊢
    simp [Ne.symm h.1, hrest]

private theorem indentLines_append (cs ds : List Char) :
    indentLines indent (cs ++ ds) = indentLines indent cs ++ indentLines indent ds :=
  List.flatMap_append

private theorem indentLines_intercalate (line : List Char) (lines : List (List Char))
    (hlines : ∀ l ∈ line :: lines, '\n' ∉ l) :
    indentLines indent (['\n'].intercalate (line :: lines)) =
      ['\n'].intercalate (line :: lines.map (indent ++ ·)) := by
  induction lines generalizing line with
  | nil =>
    simpa using indentLines_of_not_mem (hlines line List.mem_cons_self)
  | cons next lines ih =>
    rw [List.forall_mem_cons] at hlines
    have hbreak : indentLines indent ['\n'] = '\n' :: indent := by simp [indentLines]
    rw [List.intercalate_cons_cons, indentLines_append, indentLines_append,
      indentLines_of_not_mem hlines.1, hbreak, ih next hlines.2]
    cases lines <;> simp [List.intercalate_cons_cons]

theorem dedentLine_append (line : List Char) : dedentLine indent (indent ++ line) = line := by
  have hprefix : indent.isPrefixOf (indent ++ line) = true :=
    List.isPrefixOf_iff_prefix.2 (List.prefix_append indent line)
  rw [dedentLine, if_pos hprefix, List.drop_left]

theorem dedentLine_append_cons {c : Char} (hc : c ∉ indent) (line behind : List Char) :
    dedentLine indent (line ++ c :: behind) = dedentLine indent line ++ c :: behind := by
  have hiff : indent <+: line ++ c :: behind ↔ indent <+: line := by
    constructor
    · intro h
      rcases List.prefix_or_prefix_of_prefix h (List.prefix_append line _) with h | ⟨tail, rfl⟩
      · exact h
      · rw [List.prefix_append_right_inj] at h
        cases tail with
        | nil => simp
        | cons d tail =>
          obtain ⟨rfl, _⟩ := List.cons_prefix_cons.1 h
          exact absurd (by simp) hc
    · intro h
      exact h.trans (List.prefix_append line _)
  unfold dedentLine
  simp only [List.isPrefixOf_iff_prefix, hiff]
  split
  · next h => rw [List.drop_append_of_le_length h.length_le]
  · rfl

theorem dedentLines_indentLines (hindent : '\n' ∉ indent) (cs : List Char) :
    dedentLines indent (indentLines indent cs) = dedentLine indent cs := by
  obtain ⟨line, lines, hsplit⟩ := List.exists_cons_of_ne_nil (List.splitOn_ne_nil '\n' cs)
  have hcs : cs = ['\n'].intercalate (line :: lines) := by
    rw [← hsplit, List.intercalate_splitOn]
  have hlines : ∀ l ∈ line :: lines, '\n' ∉ l := hsplit ▸ not_mem_of_mem_splitOn cs
  have hindented : ∀ l ∈ line :: lines.map (indent ++ ·), '\n' ∉ l := by
    rw [List.forall_mem_cons] at hlines ⊢
    refine ⟨hlines.1, ?_⟩
    intro l hl
    obtain ⟨original, horiginal, rfl⟩ := List.mem_map.1 hl
    simp [hindent, hlines.2 original horiginal]
  have hback : (lines.map (indent ++ ·)).map (dedentLine indent) = lines := by
    rw [List.map_map]
    refine (List.map_congr_left ?_).trans (List.map_id lines)
    intro l _
    exact dedentLine_append l
  rw [dedentLines, hcs, indentLines_intercalate line lines hlines,
    List.splitOn_intercalate '\n' hindented (List.cons_ne_nil _ _), List.map_cons, hback]
  cases lines with
  | nil => simp
  | cons next lines =>
    rw [List.intercalate_cons_cons, List.intercalate_cons_cons, List.append_assoc,
      List.append_assoc, List.singleton_append, dedentLine_append_cons hindent]

private theorem dedentLines_indented (hindent : '\n' ∉ indent) (cs : List Char) :
    dedentLines indent (indent ++ indentLines indent cs) = cs := by
  have hall : indent ++ indentLines indent cs = indentLines indent (indent ++ cs) := by
    rw [indentLines_append, indentLines_of_not_mem hindent]
  rw [hall, dedentLines_indentLines hindent, dedentLine_append]

private theorem dropBlankLinesFrom_indent (hindent : ∀ c ∈ indent, isIndent c = true) {c : Char}
    (hc : isIndent c = false) (hbreak : c ≠ '\n') (line behind : List Char) :
    dropBlankLinesFrom line (indent ++ c :: behind) = line := by
  induction indent with
  | nil => simp [dropBlankLinesFrom, hbreak, hc]
  | cons space indent ih =>
    rw [List.forall_mem_cons] at hindent
    have hspace : space ≠ '\n' := by
      rintro rfl
      exact absurd hindent.1 (by decide)
    rw [List.cons_append, dropBlankLinesFrom, if_neg hspace, if_pos hindent.1]
    exact ih hindent.2

/-- Dedenting re-indented parts takes the indentation away, from the parts behind values once more
than it was put there. -/
theorem dedent_reindent (hindent : ∀ c ∈ indent, isIndent c = true) (hne : indent ≠ []) {c : Char}
    (hc : isIndent c = false) (hbreak : c ≠ '\n') (cs : List Char) (rest : List (List Char)) :
    dedent (reindent indent ((c :: cs) :: rest)) =
      (c :: cs) :: rest.map (dedentLine indent) := by
  have hnone : '\n' ∉ indent := by
    intro h
    exact absurd (hindent _ h) (by decide)
  have hfirst : indentLines indent (c :: cs) = c :: indentLines indent cs := by
    simp [indentLines, hbreak]
  have hblank : dropBlankLines (indent ++ c :: indentLines indent cs) =
      indent ++ c :: indentLines indent cs :=
    dropBlankLinesFrom_indent hindent hc hbreak _ _
  have hindentation : indentation (indent ++ c :: indentLines indent cs) = indent := by
    rw [indentation, hblank, List.takeWhile_append_of_pos hindent]
    simp [hc]
  rw [reindent, hfirst, dedent, hindentation]
  split
  · exact absurd rfl hne
  · have hline : dedentLines indent (indent ++ c :: indentLines indent cs) = c :: cs := by
      rw [← hfirst]
      exact dedentLines_indented hnone _
    rw [List.map_cons, hline, List.map_map]
    congr 1
    refine List.map_congr_left ?_
    intro part _
    exact dedentLines_indentLines hnone part

theorem dedent_of_visible {c : Char} (hc : isIndent c = false) (hbreak : c ≠ '\n')
    (cs : List Char) (rest : List (List Char)) :
    dedent ((c :: cs) :: rest) = (c :: cs) :: rest := by
  have hblank : dropBlankLines (c :: cs) = c :: cs := by
    simp [dropBlankLines, dropBlankLinesFrom, hbreak, hc]
  have hindentation : indentation (c :: cs) = [] := by
    simp [indentation, hblank, hc]
  rw [dedent, hindentation, hblank]

/-! ## Spacing behind values -/

/-- Whether the parts behind values keep their text when they are re-indented and dedented: none
begins with the indentation, but for a last one that is blank and gets trimmed away. -/
def keepsSpacing (indent : List Char) : List (List Char) → Bool
  | [] => true
  | [last] => !indent.isPrefixOf last || last.all isBlank
  | part :: next :: rest => !indent.isPrefixOf part && keepsSpacing indent (next :: rest)

def withMarks (parts : List (List Char)) : List Char :=
  parts.flatMap ('?' :: ·)

theorem isBlank_of_isIndent {c : Char} (h : isIndent c = true) : isBlank c = true := by
  simp only [isIndent, Bool.or_eq_true, beq_iff_eq] at h
  rcases h with rfl | rfl <;> decide

private theorem length_dedentLine_le (line : List Char) :
    (dedentLine indent line).length ≤ line.length := by
  unfold dedentLine
  split
  · simp
  · exact le_rfl

private theorem isPrefixOf_of_length_eq (hne : indent ≠ []) {line : List Char}
    (h : (dedentLine indent line).length = line.length) : indent.isPrefixOf line = false := by
  by_contra hprefix
  rw [Bool.not_eq_false] at hprefix
  have hpos := List.length_pos_iff.2 hne
  have hle := (List.isPrefixOf_iff_prefix.1 hprefix).length_le
  rw [dedentLine, if_pos hprefix, List.length_drop] at h
  omega

theorem dropEndWhile_eq_nil_iff {cs : List Char} :
    dropEndWhile isBlank cs = [] ↔ ∀ c ∈ cs, isBlank c = true := by
  rw [dropEndWhile, List.reverse_eq_nil_iff, List.dropWhile_eq_nil_iff]
  simp

theorem dropEndWhile_append (cs ds : List Char) :
    dropEndWhile isBlank (cs ++ ds) =
      if dropEndWhile isBlank ds = [] then dropEndWhile isBlank cs
      else cs ++ dropEndWhile isBlank ds := by
  simp only [dropEndWhile, List.reverse_append, List.dropWhile_append, List.isEmpty_iff,
    List.reverse_eq_nil_iff]
  split <;> simp

theorem dropEndWhile_append_mark (cs ds : List Char) :
    dropEndWhile isBlank (cs ++ '?' :: ds) = cs ++ '?' :: dropEndWhile isBlank ds := by
  have hmark : dropEndWhile isBlank ('?' :: ds) = '?' :: dropEndWhile isBlank ds := by
    rw [← List.singleton_append, dropEndWhile_append]
    split
    · next h =>
      rw [h]
      decide
    · rfl
  rw [dropEndWhile_append, hmark, if_neg (List.cons_ne_nil _ _)]

theorem trim_append_blank (cs : List Char) {blanks : List Char}
    (h : ∀ c ∈ blanks, isBlank c = true) : trim (cs ++ blanks) = trim cs := by
  have hnone := dropEndWhile_eq_nil_iff.2 h
  unfold trim
  rw [List.dropWhile_append]
  split
  · next hempty =>
    rw [List.isEmpty_iff.1 hempty, List.dropWhile_eq_nil_iff.2 h]
  · rw [dropEndWhile_append, if_pos hnone]

private theorem length_trimmed_le (part : List Char) (rest : List (List Char)) :
    (dropEndWhile isBlank
      (dedentLine indent part ++ withMarks (rest.map (dedentLine indent)))).length ≤
      (dropEndWhile isBlank (part ++ withMarks rest)).length := by
  induction rest generalizing part with
  | nil =>
    simp only [List.map_nil, withMarks, List.flatMap_nil, List.append_nil]
    by_cases hprefix : indent.isPrefixOf part = true
    · obtain ⟨tail, rfl⟩ := List.isPrefixOf_iff_prefix.1 hprefix
      rw [dedentLine_append, dropEndWhile_append]
      split
      · next h => simp [h]
      · simp
    · rw [dedentLine, if_neg hprefix]
  | cons next rest ih =>
    have hrest := ih next
    have hpart : (dedentLine indent part).length ≤ part.length := length_dedentLine_le part
    rw [List.map_cons, withMarks, withMarks, List.flatMap_cons, List.flatMap_cons,
      List.cons_append, List.cons_append, dropEndWhile_append_mark, dropEndWhile_append_mark,
      List.length_append, List.length_append, List.length_cons, List.length_cons]
    simp only [withMarks] at hrest
    omega

private theorem keepsSpacing_of_trimmed_eq (hindent : ∀ c ∈ indent, isIndent c = true)
    (hne : indent ≠ []) {part : List Char} {rest : List (List Char)}
    (h : dropEndWhile isBlank
      (dedentLine indent part ++ withMarks (rest.map (dedentLine indent))) =
      dropEndWhile isBlank (part ++ withMarks rest)) : keepsSpacing indent (part :: rest) = true := by
  induction rest generalizing part with
  | nil =>
    simp only [List.map_nil, withMarks, List.flatMap_nil, List.append_nil] at h
    by_cases hprefix : indent.isPrefixOf part = true
    · obtain ⟨tail, rfl⟩ := List.isPrefixOf_iff_prefix.1 hprefix
      have htail : dropEndWhile isBlank tail = [] := by
        by_contra hsome
        rw [dedentLine_append, dropEndWhile_append, if_neg hsome] at h
        exact hne (List.self_eq_append_left.1 h)
      have hblank : ∀ c ∈ indent ++ tail, isBlank c = true := by
        rw [List.forall_mem_append]
        exact ⟨fun c hc => isBlank_of_isIndent (hindent c hc), dropEndWhile_eq_nil_iff.1 htail⟩
      rw [keepsSpacing, List.all_eq_true.2 hblank, Bool.or_true]
    · simp [keepsSpacing, hprefix]
  | cons next rest ih =>
    rw [List.map_cons, withMarks, withMarks, List.flatMap_cons, List.flatMap_cons,
      List.cons_append, List.cons_append, dropEndWhile_append_mark, dropEndWhile_append_mark] at h
    have hpart : (dedentLine indent part).length ≤ part.length := length_dedentLine_le part
    have hrest : (dropEndWhile isBlank
        (dedentLine indent next ++ withMarks (rest.map (dedentLine indent)))).length ≤
        (dropEndWhile isBlank (next ++ withMarks rest)).length := length_trimmed_le next rest
    have hlength := congrArg List.length h
    simp only [List.length_append, List.length_cons] at hlength
    simp only [withMarks] at hrest
    have heq : (dedentLine indent part).length = part.length := by omega
    have htail := (List.append_inj h heq).2
    rw [keepsSpacing, isPrefixOf_of_length_eq hne heq, ih (List.cons.inj htail).2]
    rfl

theorem keepsSpacing_of_trim_eq (hindent : ∀ c ∈ indent, isIndent c = true) (hne : indent ≠ [])
    (first : List Char) {rest : List (List Char)}
    (h : trim (first ++ withMarks (rest.map (dedentLine indent))) = trim (first ++ withMarks rest)) :
    keepsSpacing indent rest = true := by
  cases rest with
  | nil => rfl
  | cons part rest =>
    have hfront : ∀ ds : List Char, (first ++ '?' :: ds).dropWhile isBlank =
        first.dropWhile isBlank ++ '?' :: ds := by
      intro ds
      have hmark : ('?' :: ds).dropWhile isBlank = '?' :: ds :=
        List.dropWhile_cons_of_neg (by decide)
      rw [List.dropWhile_append, hmark]
      split
      · next hempty => rw [List.isEmpty_iff.1 hempty, List.nil_append]
      · rfl
    rw [List.map_cons, withMarks, withMarks, List.flatMap_cons, List.flatMap_cons,
      List.cons_append, List.cons_append, trim, trim, hfront, hfront, dropEndWhile_append_mark,
      dropEndWhile_append_mark] at h
    exact keepsSpacing_of_trimmed_eq hindent hne (List.cons.inj (List.append_cancel_left h)).2

end SqlFragments.Text
