import Mathlib.Data.List.Lex
import SqlFragments.Text.Digit

/-!
# Numbers in columns

Numbers that are written with zeros in front, each up to the width of its column, stand in the
order of the numbers: the first column in which two rows differ decides.
-/

namespace SqlFragments.Text

variable {width n m : Nat}

theorem length_padded (hwidth : 0 < width) (h : n < Nat.pow 10 width) :
    (padded width n).length = width := by
  have hdigits : (decimalDigits n).length ≤ width :=
    (Nat.length_toDigits_le_iff (by decide) hwidth).2 h
  simp only [padded, List.length_append, List.length_replicate]
  omega

private theorem padded_succ (hwidth : 0 < width) (n : Nat) :
    padded (width + 1) n = padded width (n / 10) ++ [(n % 10).digitChar] := by
  by_cases hsmall : n < 10
  · have hzero : decimalDigits (n / 10) = ['0'] := by
      rw [Nat.div_eq_of_lt hsmall]
      rfl
    have hone : decimalDigits n = [n.digitChar] := Nat.toDigits_of_lt_base hsmall
    rw [padded, padded, hzero, hone, Nat.mod_eq_of_lt hsmall, List.length_singleton,
      List.length_singleton, ← List.replicate_succ', Nat.sub_add_cancel hwidth, Nat.add_sub_cancel]
  · have hmore : decimalDigits n = decimalDigits (n / 10) ++ [(n % 10).digitChar] :=
      Nat.toDigits_of_base_le (by decide) (Nat.le_of_not_lt hsmall)
    simp only [padded, hmore, List.length_append, List.length_singleton, Nat.add_sub_add_right,
      List.append_assoc]

theorem digitChar_lt (h : n < m) (hm : m < 10) : n.digitChar < m.digitChar := by
  rw [Char.lt_def, UInt32.lt_iff_toNat_lt]
  show n.digitChar.toNat < m.digitChar.toNat
  rw [Nat.toNat_digitChar_of_lt_ten (Nat.lt_trans h hm), Nat.toNat_digitChar_of_lt_ten hm]
  omega

private theorem append_lt_append {a b : List Char} (hlength : a.length = b.length) (h : a < b)
    (c d : List Char) : a ++ c < b ++ d := by
  induction a generalizing b with
  | nil =>
    rw [List.length_nil, eq_comm, List.length_eq_zero_iff] at hlength
    subst hlength
    exact absurd h (by decide)
  | cons x a ih =>
    cases b with
    | nil => cases hlength
    | cons y b =>
      rw [List.cons_append, List.cons_append, List.cons_lt_cons_iff]
      rcases List.cons_lt_cons_iff.1 h with hfirst | ⟨rfl, hrest⟩
      · exact .inl hfirst
      · exact .inr ⟨rfl, ih (Nat.succ.inj hlength) hrest⟩

theorem padded_lt_padded (hwidth : 0 < width) (h : n < m) (hm : m < Nat.pow 10 width) :
    padded width n < padded width m := by
  induction width, hwidth using Nat.le_induction generalizing n m with
  | base =>
    change m < 10 at hm
    have hone : ∀ k < 10, padded 1 k = [k.digitChar] := by decide
    rw [hone n (Nat.lt_trans h hm), hone m hm]
    exact List.Lex.rel (digitChar_lt h hm)
  | succ width hwidth ih =>
    rw [padded_succ hwidth, padded_succ hwidth]
    have hm' : m / 10 < Nat.pow 10 width := by
      change m < Nat.pow 10 width * 10 at hm
      omega
    have hle : n / 10 ≤ m / 10 := Nat.div_le_div_right (Nat.le_of_lt h)
    rcases Nat.lt_or_eq_of_le hle with hfront | hfront
    · apply append_lt_append _ (ih hfront hm')
      rw [length_padded hwidth (Nat.lt_trans hfront hm'), length_padded hwidth hm']
    · rw [hfront]
      apply List.append_left_lt
      exact List.Lex.rel (digitChar_lt (by omega) (Nat.mod_lt _ (by decide)))

/-- A row of numbers in columns. A column is its width, and what is written behind it. -/
def columns : List (Nat × List Char) → List Nat → List Char
  | (width, mark) :: layout, n :: row => padded width n ++ (mark ++ columns layout row)
  | _, _ => []

def Fits (column : Nat × List Char) (n : Nat) : Prop := 0 < column.1 ∧ n < Nat.pow 10 column.1

theorem columns_lt_columns {layout : List (Nat × List Char)} {row later : List Nat}
    (hrow : List.Forall₂ Fits layout row) (hlater : List.Forall₂ Fits layout later)
    (h : row < later) : columns layout row < columns layout later := by
  induction hrow generalizing later with
  | nil =>
    cases hlater
    exact absurd h (by decide)
  | @cons column n layout row hn _ ih =>
    obtain _ | ⟨hm, hrest⟩ := hlater
    rw [columns, columns]
    rcases List.cons_lt_cons_iff.1 h with hfirst | ⟨rfl, hbehind⟩
    · apply append_lt_append _ (padded_lt_padded hn.1 hfirst hm.2)
      rw [length_padded hn.1 hn.2, length_padded hm.1 hm.2]
    · exact List.append_left_lt (List.append_left_lt (ih hrest hbehind))

end SqlFragments.Text
