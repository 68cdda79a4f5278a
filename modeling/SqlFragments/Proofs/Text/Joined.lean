import Mathlib.Data.List.Forall2
import SqlFragments.Proofs.Text.Tight

/-!
# Joined texts

Tight texts stay tight when they are joined, whatever the separator is. And joined texts show every
difference between two rows of texts, if no text of the one is longer than its partner in the other.
-/

namespace SqlFragments.Text

theorem Tight.around {front back : List Char} (hfront : Tight front) (hback : Tight back)
    (middle : List Char) : Tight (front ++ middle ++ back) where
  ne_nil := by simp [hfront.ne_nil]
  head := by
    rw [List.head_append_of_ne_nil (by simp [hfront.ne_nil]),
      List.head_append_of_ne_nil hfront.ne_nil]
    exact hfront.head
  last := by
    rw [List.getLast_append_of_ne_nil _ hback.ne_nil]
    exact hback.last

theorem tight_intercalate (separator : List Char) {parts : List (List Char)} (hne : parts ≠ [])
    (h : ∀ part ∈ parts, Tight part) : Tight (separator.intercalate parts) := by
  induction parts with
  | nil => exact absurd rfl hne
  | cons part rest ih =>
    rw [List.forall_mem_cons] at h
    cases rest with
    | nil =>
      rw [List.intercalate_singleton]
      exact h.1
    | cons next rest =>
      rw [List.intercalate_cons_cons]
      exact h.1.around (ih (List.cons_ne_nil next rest) h.2) separator

section

variable {separator : List Char} {longs shorts : List (List Char)}

private theorem length_intercalate_le (separator : List Char)
    (h : List.Forall₂ (fun long short => short.length ≤ long.length) longs shorts) :
    (separator.intercalate shorts).length ≤ (separator.intercalate longs).length := by
  induction h with
  | nil => exact Nat.le_refl 0
  | cons hhead hrest ih =>
    cases hrest with
    | nil => simpa using hhead
    | cons =>
      rw [List.intercalate_cons_cons, List.intercalate_cons_cons]
      simp only [List.length_append]
      omega

/-- No loss of length at one place is made good at another, so joined texts are only equal where
they are joined from equal texts. -/
theorem intercalate_eq_intercalate_iff
    (h : List.Forall₂ (fun long short => short.length ≤ long.length) longs shorts) :
    separator.intercalate longs = separator.intercalate shorts ↔ longs = shorts := by
  refine ⟨fun heq => ?_, fun heq => by rw [heq]⟩
  induction h with
  | nil => rfl
  | cons hhead hrest ih =>
    cases hrest with
    | nil => simpa using heq
    | cons hnext hrest =>
      have hle := length_intercalate_le separator (.cons hnext hrest)
      rw [List.intercalate_cons_cons, List.intercalate_cons_cons, List.append_assoc,
        List.append_assoc] at heq
      have hlength := congrArg List.length heq
      simp only [List.length_append] at hlength
      obtain ⟨hfirst, hbehind⟩ := List.append_inj heq (by omega)
      rw [hfirst, ih (List.append_cancel_left hbehind)]

end

end SqlFragments.Text
