import Mathlib.Data.List.TakeWhile
import SqlFragments.Text.Blank

/-!
# Tight texts

A text that is not empty and has no blank at its ends stands firm: trimming what it is a part of
never takes anything from it.
-/

namespace SqlFragments.Text

/-- A text with something to see at both ends. -/
structure Tight (cs : List Char) : Prop where
  ne_nil : cs ≠ []
  head : isBlank (cs.head ne_nil) = false
  last : isBlank (cs.getLast ne_nil) = false

namespace Tight

protected theorem reverse {cs : List Char} (h : Tight cs) : Tight cs.reverse where
  ne_nil := by simpa using h.ne_nil
  head := by simpa using h.last
  last := by simpa using h.head

theorem between {first last : Char} (cs : List Char) (hfirst : isBlank first = false)
    (hlast : isBlank last = false) : Tight (first :: cs ++ [last]) where
  ne_nil := by simp
  head := hfirst
  last := by rwa [List.getLast_concat]

theorem of_forall {cs : List Char} (hne : cs ≠ []) (h : ∀ c ∈ cs, isBlank c = false) :
    Tight cs where
  ne_nil := hne
  head := h _ (List.head_mem hne)
  last := h _ (List.getLast_mem hne)

end Tight

theorem isBlank_of_isDigit {c : Char} (h : c.isDigit = true) : isBlank c = false := by
  simp only [Char.isDigit, Bool.and_eq_true, decide_eq_true_eq] at h
  have hlow : 48 ≤ c.toNat := UInt32.le_iff_toNat_le.1 h.1
  have hhigh : c.toNat ≤ 57 := UInt32.le_iff_toNat_le.1 h.2
  simp only [isBlank, Bool.or_eq_false_iff, Bool.and_eq_false_iff, decide_eq_false_iff_not,
    beq_eq_false_iff_ne]
  omega

theorem trim_of_forall {cs : List Char} (h : ∀ c ∈ cs, isBlank c = false) :
    trim cs = cs := by
  have hkept : ∀ ds : List Char, (∀ c ∈ ds, isBlank c = false) → ds.dropWhile isBlank = ds := by
    intro ds hds
    rw [List.dropWhile_eq_self_iff]
    intro hpos
    simp [hds]
  rw [trim, dropEndWhile, hkept cs h, hkept cs.reverse, List.reverse_reverse]
  simpa using h

end SqlFragments.Text
