import SqlFragments.Proofs.Text.Tight

/-!
# Placeholders

A text with a mark for each value, and the text that it becomes when literals take the places of
the marks. Where the literals are tight, trimming before and after filling in comes to the same.
-/

namespace SqlFragments.Text

/-- Puts literals in the places of the marks of a text, the first in that of the first mark and so
on. Marks without a literal stay. -/
def fill : List Char → List (List Char) → List Char
  | [], _ => []
  | c :: rest, literals =>
    if c = '?' then
      match literals with
      | [] => c :: fill rest []
      | literal :: literals => literal ++ fill rest literals
    else c :: fill rest literals

inductive Filled : List Char → List (List Char) → List Char → Prop
  | nil : Filled [] [] []
  | keep {cs filled : List Char} {literals : List (List Char)} (c : Char) (hc : c ≠ '?')
    (rest : Filled cs literals filled) : Filled (c :: cs) literals (c :: filled)
  | put {cs filled : List Char} {literals : List (List Char)} (literal : List Char)
    (rest : Filled cs literals filled) :
    Filled ('?' :: cs) (literal :: literals) (literal ++ filled)

namespace Filled

variable {cs ds filled filled' : List Char} {literals literals' : List (List Char)}

theorem count (h : Filled cs literals filled) : cs.count '?' = literals.length := by
  induction h with
  | nil => rfl
  | keep c hc _ ih => rw [List.count_cons_of_ne hc, ih]
  | put literal _ ih => rw [List.count_cons_self, ih, List.length_cons]

theorem fill_eq (h : Filled cs literals filled) : fill cs literals = filled := by
  induction h with
  | nil => rfl
  | keep c hc _ ih =>
    unfold fill
    rw [if_neg hc, ih]
  | put literal _ ih =>
    unfold fill
    rw [if_pos rfl]
    exact congrArg (literal ++ ·) ih

theorem of_not_mem (h : '?' ∉ cs) : Filled cs [] cs := by
  induction cs with
  | nil => exact .nil
  | cons c cs ih =>
    rw [List.mem_cons, not_or] at h
    exact .keep c (Ne.symm h.1) (ih h.2)

theorem mark (literal : List Char) : Filled ['?'] [literal] literal := by
  have h := put literal nil
  rwa [List.append_nil] at h

protected theorem append (h : Filled cs literals filled) (h' : Filled ds literals' filled') :
    Filled (cs ++ ds) (literals ++ literals') (filled ++ filled') := by
  induction h with
  | nil => exact h'
  | keep c hc _ ih => exact .keep c hc ih
  | put literal _ ih =>
    rw [List.append_assoc]
    exact .put literal ih

protected theorem reverse (h : Filled cs literals filled) :
    Filled cs.reverse (literals.reverse.map List.reverse) filled.reverse := by
  induction h with
  | nil => exact .nil
  | keep c hc _ ih =>
    rw [List.reverse_cons, List.reverse_cons]
    have hc' : Filled [c] [] [c] := .keep c hc .nil
    have happ := ih.append hc'
    rwa [List.append_nil] at happ
  | put literal _ ih =>
    rw [List.reverse_cons, List.reverse_cons, List.map_append, List.reverse_append]
    exact ih.append (mark literal.reverse)

theorem eq_nil_iff (h : Filled cs literals filled) (tight : ∀ l ∈ literals, Tight l) :
    cs = [] ↔ filled = [] := by
  cases h with
  | nil => simp
  | keep c hc rest => simp
  | put literal rest =>
    have hne := (tight literal List.mem_cons_self).ne_nil
    simp [hne]

protected theorem dropWhile (h : Filled cs literals filled) (tight : ∀ l ∈ literals, Tight l) :
    Filled (cs.dropWhile isBlank) literals (filled.dropWhile isBlank) := by
  induction h with
  | nil => exact .nil
  | keep c hc rest ih =>
    by_cases hblank : isBlank c = true
    · rw [List.dropWhile_cons_of_pos hblank, List.dropWhile_cons_of_pos hblank]
      exact ih tight
    · rw [List.dropWhile_cons_of_neg hblank, List.dropWhile_cons_of_neg hblank]
      exact .keep c hc rest
  | @put cs filled literals literal rest ih =>
    have hl := tight literal List.mem_cons_self
    obtain ⟨c, tail, rfl⟩ := List.exists_cons_of_ne_nil hl.ne_nil
    have hhead : ¬ isBlank c = true := by simpa using hl.head
    rw [List.dropWhile_cons_of_neg (by decide), List.cons_append,
      List.dropWhile_cons_of_neg hhead]
    exact .put (c :: tail) rest

protected theorem dropEndWhile (h : Filled cs literals filled) (tight : ∀ l ∈ literals, Tight l) :
    Filled (dropEndWhile isBlank cs) literals (dropEndWhile isBlank filled) := by
  have htight : ∀ l ∈ literals.reverse.map List.reverse, Tight l := by
    intro l hl
    obtain ⟨l', hl', rfl⟩ := List.mem_map.1 hl
    exact (tight l' (List.mem_reverse.1 hl')).reverse
  have hback := (h.reverse.dropWhile htight).reverse
  have hself : (literals.reverse.map List.reverse).reverse.map List.reverse = literals := by
    rw [← List.map_reverse, List.reverse_reverse, List.map_map]
    exact List.map_id'' List.reverse_reverse literals
  rwa [hself] at hback

/-- Trimming and filling in tight literals can change places. -/
protected theorem trim (h : Filled cs literals filled) (tight : ∀ l ∈ literals, Tight l) :
    Filled (trim cs) literals (trim filled) :=
  (h.dropWhile tight).dropEndWhile tight

end Filled

end SqlFragments.Text
