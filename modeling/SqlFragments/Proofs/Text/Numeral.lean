import Mathlib
import SqlFragments.Number.Decimal
import SqlFragments.Proofs.Calendar.OffsetText

/-!
# Numerals

Rows of the digits 0 to 9 and the numbers that they spell. A number is spelled by its decimal
digits, zeros in front change nothing, and a row in front of another one counts by the power of ten
of the digits behind it. Every reader of digits takes such a row for the number that it spells.
-/

namespace SqlFragments.Text

theorem numeral_append (front back : List Nat) :
    numeral (front ++ back) = numeral front * 10 ^ back.length + numeral back := by
  induction back using List.reverseRecOn with
  | nil => simp [numeral]
  | append_singleton back d ih =>
    have hlast : ∀ ds : List Nat, numeral (ds ++ [d]) = 10 * numeral ds + d := by
      simp [numeral]
    rw [← List.append_assoc, hlast, hlast, ih, List.length_append, List.length_singleton, pow_succ]
    ring

theorem asciiDigit?_digitChar (d : Fin 10) : asciiDigit? d.val.digitChar = some d.val := by
  decide +revert +kernel

/-- A row of the digits 0 to 9, as the number that it stands for. -/
def Spells (cs : List Char) (n : Nat) : Prop :=
  ∃ ds : List (Fin 10), cs = ds.map (fun d => d.val.digitChar) ∧ numeral (ds.map Fin.val) = n

namespace Spells

variable {front back cs : List Char} {n m : Nat}

theorem append (hfront : Spells front n) (hback : Spells back m) :
    Spells (front ++ back) (n * 10 ^ back.length + m) := by
  obtain ⟨ds, rfl, rfl⟩ := hfront
  obtain ⟨es, rfl, rfl⟩ := hback
  exact ⟨ds ++ es, (List.map_append ..).symm, by simp [numeral_append]⟩

theorem zeros (count : Nat) : Spells (List.replicate count '0') 0 := by
  refine ⟨List.replicate count 0, by simp, ?_⟩
  induction count with
  | zero => rfl
  | succ count ih => simpa [List.replicate_succ', numeral_append, numeral] using ih

theorem decimalDigits (n : Nat) : Spells (decimalDigits n) n := by
  induction n using Nat.strong_induction_on with
  | _ n ih =>
    by_cases hsmall : n < 10
    · exact ⟨[⟨n, hsmall⟩], Nat.toDigits_of_lt_base hsmall, by simp [numeral]⟩
    · have hdigits : Text.decimalDigits n = Text.decimalDigits (n / 10) ++ [(n % 10).digitChar] :=
        Nat.toDigits_of_base_le (by decide) (Nat.le_of_not_lt hsmall)
      have hlast : Spells [(n % 10).digitChar] (n % 10) :=
        ⟨[⟨n % 10, Nat.mod_lt n (by decide)⟩], rfl, by simp [numeral]⟩
      have happend := (ih (n / 10) (by omega)).append hlast
      rw [← hdigits, List.length_singleton, pow_one, Nat.div_add_mod'] at happend
      exact happend

theorem padded (width n : Nat) : Spells (padded width n) n := by
  have happend := (zeros (width - (Text.decimalDigits n).length)).append (decimalDigits n)
  rwa [Nat.zero_mul, Nat.zero_add] at happend

theorem of_append (h : Spells (front ++ back) n) : ∃ whole rest, Spells front whole ∧
    Spells back rest ∧ n = whole * 10 ^ back.length + rest := by
  obtain ⟨ds, hds, rfl⟩ := h
  obtain ⟨whole, rest, rfl, rfl, rfl⟩ := List.append_eq_map_iff.1 hds
  exact ⟨_, _, ⟨whole, rfl, rfl⟩, ⟨rest, rfl, rfl⟩, by simp [numeral_append]⟩

theorem mapM_eq (h : Spells cs n) {read : Char → Option Nat}
    (hread : ∀ d : Fin 10, read d.val.digitChar = some d.val) :
    (cs.mapM read).map numeral = some n := by
  obtain ⟨ds, rfl, rfl⟩ := h
  have hvalues : (ds.map fun d => d.val.digitChar).mapM read = some (ds.map Fin.val) := by
    induction ds with
    | nil => rfl
    | cons d ds ih => rw [List.map_cons, List.mapM_cons, hread, ih]; rfl
  rw [hvalues, Option.map_some]

theorem digits?_eq (h : Spells cs n) : Number.Decimal.digits? cs = some n :=
  h.mapM_eq digitValue?_digitChar

theorem isDigit (h : Spells cs n) : ∀ c ∈ cs, c.isDigit = true := by
  have hdigit : ∀ d : Fin 10, d.val.digitChar.isDigit = true := by decide
  obtain ⟨ds, rfl, -⟩ := h
  intro c hc
  obtain ⟨d, -, rfl⟩ := List.mem_map.1 hc
  exact hdigit d

theorem head (h : Spells cs n) (hne : cs ≠ []) :
    ∃ (d : Fin 10) (rest : List Char), cs = d.val.digitChar :: rest := by
  obtain ⟨_ | ⟨d, ds⟩, rfl, -⟩ := h
  · exact absurd rfl hne
  · exact ⟨d, _, rfl⟩

theorem not_mem (h : Spells cs n) {c : Char} (hc : c.isDigit = false) : c ∉ cs := by
  intro hmem
  rw [h.isDigit c hmem] at hc
  cases hc

end Spells

theorem decimalDigits_ne_nil (n : Nat) : decimalDigits n ≠ [] := Nat.toDigits_ne_nil

theorem length_decimalDigits_le_iff {n width : Nat} (hwidth : 0 < width) :
    (decimalDigits n).length ≤ width ↔ n < 10 ^ width :=
  Nat.length_toDigits_le_iff (by decide) hwidth

theorem lt_pow_length_decimalDigits (n : Nat) : n < 10 ^ (decimalDigits n).length :=
  (length_decimalDigits_le_iff (List.length_pos_of_ne_nil (decimalDigits_ne_nil n))).1 le_rfl

theorem length_decimalDigits_mono {n m : Nat} (h : n ≤ m) :
    (decimalDigits n).length ≤ (decimalDigits m).length :=
  (length_decimalDigits_le_iff (List.length_pos_of_ne_nil (decimalDigits_ne_nil m))).2
    (h.trans_lt (lt_pow_length_decimalDigits m))

theorem length_decimalDigits_succ_le {n : Nat} (h : (n + 1) % 10 ≠ 0) :
    (decimalDigits (n + 1)).length ≤ (decimalDigits n).length := by
  have hpos := List.length_pos_of_ne_nil (decimalDigits_ne_nil n)
  rw [length_decimalDigits_le_iff hpos]
  refine lt_of_le_of_ne (lt_pow_length_decimalDigits n) fun hpower => h ?_
  rw [hpower, Nat.mod_eq_zero_of_dvd (dvd_pow_self 10 hpos.ne')]

theorem pow_length_decimalDigits_le {n : Nat} (hn : n ≠ 0) :
    10 ^ ((decimalDigits n).length - 1) ≤ n := by
  by_cases hone : (decimalDigits n).length ≤ 1
  · rw [Nat.sub_eq_zero_of_le hone]
    exact Nat.one_le_iff_ne_zero.2 hn
  · by_contra hlt
    have hshort := (length_decimalDigits_le_iff (by omega)).2 (not_le.1 hlt)
    omega

end SqlFragments.Text
