import SqlFragments.Proofs.Text.Reindent
import SqlFragments.Proofs.Text.Tight

/-!
# Firm texts

A tight text on a single line stays as it is wherever it stands: trimming takes only from what is
in front of it and behind it, and so does dedenting, because it neither begins a line with an
indentation nor has a line begin in it.
-/

namespace SqlFragments.Text

structure Firm (cs : List Char) : Prop extends Tight cs where
  unbroken : '\n' ∉ cs

namespace Firm

theorem of_forall {cs : List Char} (hne : cs ≠ []) (h : ∀ c ∈ cs, isBlank c = false) :
    Firm cs where
  toTight := .of_forall hne h
  unbroken hbreak := absurd (h _ hbreak) (by decide)

theorem between {first last : Char} (cs : List Char) (hfirst : isBlank first = false)
    (hlast : isBlank last = false) (h : '\n' ∉ cs) : Firm (first :: cs ++ [last]) where
  toTight := .between cs hfirst hlast
  unbroken := by
    have hne : ∀ c, isBlank c = false → '\n' ≠ c := by
      rintro _ hc rfl
      exact absurd hc (by decide)
    simp [hne first hfirst, hne last hlast, h]

end Firm

/-! ## Trimming around a tight text -/

theorem Tight.dropWhile_append {cs : List Char} (h : Tight cs) (front back : List Char) :
    (front ++ cs ++ back).dropWhile isBlank = front.dropWhile isBlank ++ cs ++ back := by
  obtain ⟨c, rest, rfl⟩ := List.exists_cons_of_ne_nil h.ne_nil
  have hc : isBlank c = false := h.head
  rw [List.append_assoc, List.append_assoc, List.dropWhile_append]
  split
  · next hempty =>
    rw [List.isEmpty_iff.1 hempty, List.cons_append, List.dropWhile_cons_of_neg (by simp [hc])]
    rfl
  · rfl

theorem Tight.trim_around {cs : List Char} (h : Tight cs) (front back : List Char) :
    trim (front ++ cs ++ back) =
      front.dropWhile isBlank ++ cs ++ dropEndWhile isBlank back := by
  have hback := h.reverse.dropWhile_append back.reverse (front.dropWhile isBlank).reverse
  rw [trim, h.dropWhile_append, dropEndWhile, dropEndWhile, List.reverse_append,
    List.reverse_append, ← List.append_assoc, hback]
  simp

/-! ## Dedenting around a firm text -/

theorem dedentLines_of_not_mem (indent : List Char) {line : List Char} (h : '\n' ∉ line) :
    dedentLines indent line = dedentLine indent line := by
  rw [dedentLines, List.splitOn_eq_singleton h, List.map_singleton, List.intercalate_singleton]

theorem dedentLines_append_break (indent cs ds : List Char) :
    dedentLines indent (cs ++ '\n' :: ds) =
      dedentLines indent cs ++ '\n' :: dedentLines indent ds := by
  have hfront : (cs.splitOn '\n').map (dedentLine indent) ≠ [] := by simp
  have hback : (ds.splitOn '\n').map (dedentLine indent) ≠ [] := by simp
  rw [dedentLines, List.splitOn_append_cons_self, List.map_append,
    intercalate_append _ hfront hback]
  rfl

variable {indent cs : List Char}

private theorem dedentLine_around (h : Tight cs) (hindent : ∀ c ∈ indent, isIndent c = true)
    (front back : List Char) :
    dedentLine indent (front ++ cs ++ back) = dedentLine indent front ++ cs ++ back := by
  obtain ⟨c, rest, rfl⟩ := List.exists_cons_of_ne_nil h.ne_nil
  have hvisible : isBlank c = false := h.head
  have hc : c ∉ indent := by
    intro hmem
    rw [isBlank_of_isIndent (hindent c hmem)] at hvisible
    cases hvisible
  rw [List.append_assoc, List.append_assoc, List.cons_append, dedentLine_append_cons hc]

/-- Dedenting takes nothing of a firm text, which stays behind what is in front of it. -/
theorem Firm.dedentLines_around (h : Firm cs) (hindent : ∀ c ∈ indent, isIndent c = true)
    (front back : List Char) :
    ∃ behind, dedentLines indent (front ++ cs ++ back) =
      dedentLines indent front ++ cs ++ behind := by
  induction hlength : front.length using Nat.strong_induction_on generalizing front with
  | _ length ih =>
    by_cases hfront : '\n' ∈ front
    · obtain ⟨line, rest, rfl, -⟩ := List.eq_append_cons_of_mem hfront
      have hshorter : rest.length < length := by
        rw [← hlength, List.length_append, List.length_cons]
        omega
      obtain ⟨behind, hbehind⟩ := ih rest.length hshorter rest rfl
      refine ⟨behind, ?_⟩
      rw [List.append_assoc, List.append_assoc, List.cons_append, dedentLines_append_break,
        ← List.append_assoc rest, hbehind, dedentLines_append_break]
      simp
    · by_cases hback : '\n' ∈ back
      · obtain ⟨line, rest, rfl, hline⟩ := List.eq_append_cons_of_mem hback
        refine ⟨line ++ '\n' :: dedentLines indent rest, ?_⟩
        have hone : '\n' ∉ front ++ cs ++ line := by simp [hfront, h.unbroken, hline]
        rw [← List.append_assoc, dedentLines_append_break, dedentLines_of_not_mem indent hone,
          dedentLines_of_not_mem indent hfront, dedentLine_around h.toTight hindent]
        simp
      · have hone : '\n' ∉ front ++ cs ++ back := by simp [hfront, h.unbroken, hback]
        refine ⟨back, ?_⟩
        rw [dedentLines_of_not_mem indent hone, dedentLines_of_not_mem indent hfront,
          dedentLine_around h.toTight hindent]

end SqlFragments.Text
