import Mathlib
import SqlFragments.Literal.Basic
import SqlFragments.Proofs.Text.Numeral

/-!
# Whole numbers in writing

A whole number has a text exactly where it is below the power of ten that has one digit too many.
The text is its digits with a minus sign where it is below zero.
-/

namespace SqlFragments.Number

open Text

theorem isOverlong_iff {size : Nat} : isOverlong size = true ↔ 10 ^ mostDigits ≤ size := by
  rw [isOverlong, decide_eq_true_iff, ← not_le, length_decimalDigits_le_iff (by decide), not_lt]

theorem Whole.ofInt_of_short {n : Int} (h : isOverlong n.natAbs = false) :
    Whole.ofInt n = .ok ⟨n, h⟩ :=
  dif_pos h

theorem Whole.ofInt_of_overlong {n : Int} (h : isOverlong n.natAbs = true) :
    Whole.ofInt n = .error .badValue :=
  dif_neg (Bool.not_eq_false _ ▸ h)

theorem toList_toString (n : Int) :
    (toString n).toList = Decimal.sign (decide (n < 0)) ++ decimalDigits n.natAbs := by
  rw [Int.toString_eq_repr, Int.repr_eq_if]
  split
  · next hsign =>
    rw [decide_eq_false (by omega), Nat.toList_repr, (by omega : n.toNat = n.natAbs)]
    rfl
  · next hsign =>
    rw [decide_eq_true (by omega), String.toList_append, Nat.toList_repr,
      (by omega : (-n).toNat = n.natAbs)]
    rfl

end SqlFragments.Number

namespace SqlFragments.Literal

open Number

theorem wholeText_of_short {n : Int} (h : isOverlong n.natAbs = false) :
    wholeText n = .ok (toString n) := by
  rw [wholeText, Whole.ofInt_of_short h]
  rfl

theorem wholeText_of_overlong {n : Int} (h : isOverlong n.natAbs = true) :
    wholeText n = .error .badValue := by
  rw [wholeText, Whole.ofInt_of_overlong h]
  rfl

theorem eq_toString_of_wholeText {n : Int} {s : String} (h : wholeText n = .ok s) :
    s = toString n := by
  cases hsize : isOverlong n.natAbs with
  | false =>
    rw [wholeText_of_short hsize] at h
    exact (Except.ok.inj h).symm
  | true =>
    rw [wholeText_of_overlong hsize] at h
    cases h

end SqlFragments.Literal
