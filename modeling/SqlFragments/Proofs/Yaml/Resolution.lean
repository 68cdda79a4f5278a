import Mathlib.Data.List.TakeWhile
import SqlFragments.Proofs.Calendar.OffsetText
import SqlFragments.Proofs.Text.Tight
import SqlFragments.Yaml.Scalar

/-!
# Plain scalars that are offsets

A plain scalar in the form of an offset is a text only where it has not the form of a whole number
as well: of one in base 8, behind a zero, of one in base 10, or of places of 60.
-/

namespace SqlFragments

open Calendar Text

namespace Yaml.Scalar

/-- Whether the text of an offset has the form of a whole number. -/
def isNumber (z : OffsetText) : Bool :=
  match z.minutes? with
  | none => z.hours ≠ 8 ∧ z.hours ≠ 9
  | some (false, minutes) => 10 ≤ z.hours ∨ z.hours < 8 ∧ minutes < 80 ∧ minutes.val % 10 < 8
  | some (true, minutes) => 10 ≤ z.hours ∧ minutes < 60

/-! ## Digits -/

private theorem isDigit_digitChar (d : Fin 10) : d.val.digitChar.isDigit = true := by
  decide +revert

private theorem digitChar_eq_zero (d : Fin 10) : d.val.digitChar = '0' ↔ d = 0 := by
  decide +revert

private theorem digitChar_le_five (d : Fin 10) : d.val.digitChar ≤ '5' ↔ d < 6 := by
  decide +revert

private theorem isOctal_digitChar (d : Fin 10) :
    (d.val.digitChar == '_' || ((hexDigit? d.val.digitChar).filter (· < 8)).isSome) =
      decide (d < 8) := by
  decide +revert

private theorem exists_digits (n : Fin 100) : ∃ a b : Fin 10, n.val = 10 * a.val + b.val ∧
    padded 2 n = [a.val.digitChar, b.val.digitChar] :=
  ⟨⟨n.val / 10, by omega⟩, ⟨n.val % 10, by omega⟩, (Nat.div_add_mod n.val 10).symm, padded_two n⟩

private theorem isDigit_of_mem_padded {n : Fin 100} {c : Char} (h : c ∈ padded 2 n) :
    c.isDigit = true := by
  obtain ⟨a, b, -, hpadded⟩ := exists_digits n
  rw [hpadded, List.mem_cons, List.mem_singleton] at h
  rcases h with rfl | rfl <;> exact isDigit_digitChar _

private theorem isDigit_of_mem_size {z : OffsetText} {c : Char} (h : c ∈ z.size) :
    c.isDigit = true ∨ c = ':' := by
  rcases List.mem_append.1 h with h | h
  · exact .inl (isDigit_of_mem_padded h)
  · obtain ⟨negative, hours, _ | ⟨_ | _, minutes⟩⟩ := z
    · cases h
    · exact .inl (isDigit_of_mem_padded h)
    · rcases List.mem_cons.1 h with h | h
      · exact .inr h
      · exact .inl (isDigit_of_mem_padded h)

/-! ## Whole numbers -/

private def isOctal (c : Char) : Bool := c == '_' || ((hexDigit? c).filter (· < 8)).isSome

private theorem isSize_of_lt {n : Fin 100} (hn : n < 10) (rest : List Char) :
    isSize (padded 2 n ++ rest) = (decide (n < 8) && rest.all isOctal) := by
  obtain ⟨a, b, hdigits, hpadded⟩ := exists_digits n
  have ha : a = 0 := by omega
  have hb : (n < 8) ↔ (b < 8) := by omega
  have hdigit := isDigit_digitChar b
  rw [hpadded, (digitChar_eq_zero a).2 ha, decide_eq_decide.2 hb, ← isOctal_digitChar]
  generalize b.val.digitChar = second at hdigit ⊢
  rw [List.cons_append, List.singleton_append]
  unfold isSize
  split
  · next heq => cases heq
  · next heq =>
    cases heq
    cases hdigit
  · next heq =>
    cases heq
    cases hdigit
  · next heq =>
    cases heq
    rfl
  · next h => exact absurd rfl (h _)

private theorem isSize_of_le {n : Fin 100} (hn : 10 ≤ n) (rest : List Char) :
    isSize (padded 2 n ++ rest) = match (padded 2 n ++ rest).splitOn ':' with
      | whole :: places => isWhole whole && places.all isSixtieth
      | [] => false := by
  obtain ⟨a, b, hdigits, hpadded⟩ := exists_digits n
  have hfirst : a.val.digitChar ≠ '0' := by
    rw [Ne, digitChar_eq_zero]
    omega
  rw [hpadded, List.cons_append]
  unfold isSize
  split
  · next heq => exact absurd (List.cons.inj heq).1 hfirst
  · next heq => exact absurd (List.cons.inj heq).1 hfirst
  · next heq => exact absurd (List.cons.inj heq).1 hfirst
  · next heq => exact absurd (List.cons.inj heq).1 hfirst
  · rfl

private theorem colon_not_mem_padded (n : Fin 100) : ':' ∉ padded 2 n := by
  intro h
  cases isDigit_of_mem_padded h

private theorem isWhole_of_digits {cs : List Char} (hne : cs ≠ [])
    (h : ∀ c ∈ cs, c.isDigit = true) : isWhole cs = true := by
  cases cs with
  | nil => exact absurd rfl hne
  | cons first rest =>
    rw [List.forall_mem_cons] at h
    rw [isWhole, h.1, Bool.true_and, List.all_eq_true]
    intro c hc
    rw [isDigitOrGap, h.2 c hc, Bool.true_or]

private theorem all_isOctal_padded (n : Fin 100) :
    (padded 2 n).all isOctal = decide (n < 80 ∧ n.val % 10 < 8) := by
  obtain ⟨a, b, hdigits, hpadded⟩ := exists_digits n
  rw [hpadded, List.all_cons, List.all_cons, List.all_nil, Bool.and_true, isOctal, isOctal,
    isOctal_digitChar, isOctal_digitChar, ← Bool.decide_and, decide_eq_decide]
  omega

private theorem isSixtieth_padded (n : Fin 100) : isSixtieth (padded 2 n) = decide (n < 60) := by
  obtain ⟨a, b, hdigits, hpadded⟩ := exists_digits n
  have hsmall : (n < 60) ↔ (a < 6) := by omega
  rw [hpadded, isSixtieth, isDigit_digitChar, isDigit_digitChar, Bool.true_and, Bool.and_true,
    decide_eq_decide, hsmall, digitChar_le_five]

/-! ## Resolution -/

variable (z : OffsetText)

private theorem isTruth_text : isTruth z.text = false := by
  have hwords : ∀ s ∈ ["yes", "Yes", "YES", "true", "True", "TRUE", "on", "On", "ON",
      "no", "No", "NO", "false", "False", "FALSE", "off", "Off", "OFF"],
      s.toList.head? ≠ some '+' ∧ s.toList.head? ≠ some '-' := by decide
  rw [isTruth, ← Bool.not_eq_true, List.contains_iff_mem]
  intro h
  exact z.text_ne (hwords _ h).1 (hwords _ h).2 rfl

private theorem isNothing_text : isNothing z.text = false := by
  have hwords : ∀ s ∈ ["", "~", "null", "Null", "NULL"],
      s.toList.head? ≠ some '+' ∧ s.toList.head? ≠ some '-' := by decide
  rw [isNothing, ← Bool.not_eq_true, List.contains_iff_mem]
  intro h
  exact z.text_ne (hwords _ h).1 (hwords _ h).2 rfl

private theorem readSign_text :
    Number.Decimal.readSign z.text.toList = (z.negative, z.size) := by
  rw [OffsetText.toList_text, OffsetText.sign]
  cases z.negative <;> rfl

private theorem magnitude?_size : magnitude? z.size = none := by
  have hpoint : ∀ c ∈ z.size, c ≠ '.' := by
    rintro c hc rfl
    rcases isDigit_of_mem_size hc with h | h <;> cases h
  have hword : ∀ s : String, '.' ∈ s.toList → String.ofList z.size ≠ s := by
    rintro _ hs rfl
    rw [String.toList_ofList] at hs
    exact hpoint '.' hs rfl
  have hfront : z.size.takeWhile (· != '.') = z.size :=
    List.takeWhile_eq_self_iff.2 fun c hc => by simpa using hpoint c hc
  unfold magnitude?
  rw [if_neg (by simp [hword]), if_neg (by simp [hword])]
  split
  · next rest heq => exact absurd rfl (hpoint '.' (heq ▸ List.mem_cons_self))
  · simp only [hfront, List.drop_length]

private theorem isDouble_text : isDouble z.text.toList = false := by
  rw [isDouble, readSign_text, magnitude?_size]

private theorem isMoment_text : isMoment z.text.toList = false := by
  have hnone : ∀ least, date? least z.text.toList = none := by
    intro least
    have hdigits : number? 4 4 z.text.toList = none := by
      rw [OffsetText.toList_text]
      rcases z.sign_eq with h | h <;> simp [h, number?]
    rw [date?, hdigits]
    rfl
  rw [isMoment, hnone, hnone]

private theorem isInteger_text : isInteger z.text.toList = isNumber z := by
  rw [isInteger, readSign_text]
  obtain ⟨negative, hours, minutes?⟩ := z
  rw [OffsetText.size]
  dsimp only
  have hwhole : isWhole (padded 2 hours) = true :=
    isWhole_of_digits (by simp [padded_two]) fun _ h => isDigit_of_mem_padded h
  rcases Nat.lt_or_ge hours.val 10 with hhours | hhours
  · rw [isSize_of_lt hhours, isNumber, OffsetText.behind]
    obtain _ | ⟨_ | _, minutes⟩ := minutes?
    · simp only [List.all_nil, Bool.and_true, decide_eq_decide]
      omega
    · simp only [all_isOctal_padded, ← Bool.decide_and, decide_eq_decide]
      omega
    · simp [isOctal, hexDigit?]
      omega
  · have hle : 10 ≤ hours := hhours
    rw [isSize_of_le hhours, isNumber, OffsetText.behind]
    obtain _ | ⟨_ | _, minutes⟩ := minutes?
    · dsimp only
      rw [List.append_nil, List.splitOn_eq_singleton (colon_not_mem_padded hours)]
      simp only [hwhole, List.all_nil, Bool.and_true, true_eq_decide_iff]
      omega
    · dsimp only
      have hcolon : ':' ∉ padded 2 hours ++ padded 2 minutes := by
        rw [List.mem_append, not_or]
        exact ⟨colon_not_mem_padded hours, colon_not_mem_padded minutes⟩
      have hdigits : ∀ c ∈ padded 2 hours ++ padded 2 minutes, c.isDigit = true := by
        rw [List.forall_mem_append]
        exact ⟨fun _ => isDigit_of_mem_padded, fun _ => isDigit_of_mem_padded⟩
      rw [List.splitOn_eq_singleton hcolon]
      simp [isWhole_of_digits (by simp [padded_two]) hdigits, hle]
    · dsimp only
      rw [List.splitOn_append_cons_self_of_not_mem (colon_not_mem_padded hours),
        List.splitOn_eq_singleton (colon_not_mem_padded minutes)]
      simp [hwhole, isSixtieth_padded, hle]

/-- A plain scalar that is the text of an offset is a whole number or a text. -/
theorem tagOf_offset : tagOf z.text = if isNumber z then .integer else .text := by
  have hmerge : z.text ≠ "<<" := z.text_ne (by decide) (by decide)
  have hrepresentative : z.text ≠ "=" := z.text_ne (by decide) (by decide)
  rw [tagOf, isTruth_text, isDouble_text, isInteger_text, if_neg hmerge, isNothing_text,
    isMoment_text, if_neg hrepresentative]
  rfl

/-! ## Values -/

private theorem isBlank_digitChar (d : Fin 10) : isBlank d.val.digitChar = false := by
  decide +revert

private theorem digit?_digitChar {base : Nat} (hbase : base = 8 ∨ base = 10) {d : Fin 10}
    (hd : d.val < base) : digit? base d.val.digitChar = some d.val := by
  rcases hbase with rfl | rfl <;> decide +revert

private theorem letter_ne_digitChar (d : Fin 10) : d.val.digitChar.toLower ≠ 'o' := by
  decide +revert

private theorem readSign_digits (digits : List (Fin 10)) :
    Number.Decimal.readSign (digits.map (·.val.digitChar)) =
      (false, digits.map (·.val.digitChar)) := by
  have hsign : ∀ d : Fin 10, d.val.digitChar ≠ '-' ∧ d.val.digitChar ≠ '+' := by decide
  cases digits with
  | nil => rfl
  | cons d digits =>
    unfold Number.Decimal.readSign
    split
    · next heq => exact absurd (List.cons.inj heq).1 (hsign d).1
    · next heq => exact absurd (List.cons.inj heq).1 (hsign d).2
    · rfl

theorem exists_wholeIn {base : Nat} (hbase : base = 8 ∨ base = 10) {digits : List (Fin 10)}
    (hne : digits ≠ []) (h : ∀ d ∈ digits, d.val < base)
    (hshort : digits.length ≤ Number.mostDigits) :
    ∃ n, wholeIn base (digits.map (·.val.digitChar)) = .ok n := by
  have htrim : trim (digits.map (·.val.digitChar)) = digits.map (·.val.digitChar) := by
    apply trim_of_forall
    simp [isBlank_digitChar]
  have hletter : withoutLetter base (digits.map (·.val.digitChar)) =
      digits.map (·.val.digitChar) := by
    unfold withoutLetter
    split
    · next letter rest heq =>
      obtain ⟨d, -, rfl⟩ : ∃ d ∈ digits, d.val.digitChar = letter := by
        rw [← List.mem_map, heq]
        simp
      have hletter : some d.val.digitChar.toLower ≠ letterOf? base := by
        rcases hbase with rfl | rfl
        · exact fun h => letter_ne_digitChar d (Option.some.inj h)
        · exact fun h => by cases h
      rw [if_neg hletter, heq]
    · rfl
  have hvalues : ∀ ds : List (Fin 10), (∀ d ∈ ds, d.val < base) →
      (ds.map (·.val.digitChar)).mapM (digit? base) = some (ds.map Fin.val) := by
    intro ds hds
    induction ds with
    | nil => rfl
    | cons d ds ih =>
      rw [List.forall_mem_cons] at hds
      rw [List.map_cons, List.mapM_cons, digit?_digitChar hbase hds.1, ih hds.2]
      rfl
  rw [wholeIn, htrim, readSign_digits]
  dsimp only
  rw [hletter]
  split
  · next heq => exact absurd (List.map_eq_nil_iff.1 heq) hne
  · rw [hvalues digits h]
    dsimp only
    rw [List.length_map, if_neg fun hlong => absurd hshort (not_le.2 hlong.2)]
    exact ⟨_, rfl⟩

private theorem exists_sizeDigits (hcolon : ':' ∉ z.size) :
    ∃ digits : List (Fin 10), digits ≠ [] ∧ digits.length ≤ Number.mostDigits ∧
      z.size = digits.map (·.val.digitChar) ∧
      (isNumber z = true → z.hours.val < 10 → ∀ d ∈ digits, d.val < 8) := by
  obtain ⟨negative, hours, minutes?⟩ := z
  obtain ⟨a, b, hhours, hpadded⟩ := exists_digits hours
  rw [OffsetText.size, OffsetText.behind] at hcolon ⊢
  dsimp only at hcolon ⊢
  rw [hpadded]
  obtain _ | ⟨_ | _, minutes⟩ := minutes?
  · refine ⟨[a, b], by simp, (by decide : 2 ≤ 4300), rfl, ?_⟩
    simp only [isNumber, decide_eq_true_eq, List.forall_mem_cons]
    simp
    omega
  · obtain ⟨c, d, hminutes, hpadded'⟩ := exists_digits minutes
    refine ⟨[a, b, c, d], by simp, (by decide : 4 ≤ 4300), by simp [hpadded'], ?_⟩
    simp only [isNumber, decide_eq_true_eq, List.forall_mem_cons]
    simp
    omega
  · exact absurd (by simp) hcolon

private theorem colon_not_mem_size (h : isNumber z = true) (hless : z.hours.val < 10) :
    ':' ∉ z.size := by
  obtain ⟨negative, hours, minutes?⟩ := z
  dsimp only at hless
  rw [OffsetText.size, OffsetText.behind, List.mem_append, not_or]
  refine ⟨colon_not_mem_padded hours, ?_⟩
  obtain _ | ⟨_ | _, minutes⟩ := minutes?
  · exact List.not_mem_nil
  · exact colon_not_mem_padded minutes
  · simp only [isNumber, decide_eq_true_eq] at h
    omega

private theorem exists_wholeIn_padded (n : Fin 100) : ∃ k, wholeIn 10 (padded 2 n) = .ok k := by
  obtain ⟨a, b, -, hpadded⟩ := exists_digits n
  rw [hpadded]
  exact exists_wholeIn (.inr rfl) (List.cons_ne_nil a [b]) (fun d _ => d.isLt)
    (by decide : 2 ≤ Number.mostDigits)

private theorem exists_places (hcolon : ':' ∈ z.size) :
    ∃ places, (z.size.splitOn ':').mapM (wholeIn 10) = .ok places := by
  obtain ⟨negative, hours, minutes?⟩ := z
  rw [OffsetText.size, OffsetText.behind] at hcolon ⊢
  dsimp only at hcolon ⊢
  have hhours := colon_not_mem_padded hours
  obtain _ | ⟨_ | _, minutes⟩ := minutes?
  · exact absurd (by simpa using hcolon) hhours
  · have hminutes := colon_not_mem_padded minutes
    rcases List.mem_append.1 hcolon with h | h
    · exact absurd h hhours
    · exact absurd h hminutes
  · obtain ⟨n, hn⟩ := exists_wholeIn_padded hours
    obtain ⟨k, hk⟩ := exists_wholeIn_padded minutes
    rw [List.splitOn_append_cons_self_of_not_mem hhours,
      List.splitOn_eq_singleton (colon_not_mem_padded minutes), List.mapM_cons, List.mapM_cons, hn,
      hk]
    exact ⟨_, rfl⟩

theorem exists_integerValue (h : isNumber z = true) : ∃ n, integerValue z.text = .ok n := by
  have hfilter : z.text.toList.filter (· != '_') = z.text.toList := by
    rw [List.filter_eq_self]
    intro c hc
    rw [OffsetText.toList_text, List.mem_cons] at hc
    rcases hc with rfl | hc
    · rcases z.sign_eq with hsign | hsign <;> rw [hsign] <;> rfl
    · rcases isDigit_of_mem_size hc with hdigit | rfl
      · rw [bne_iff_ne]
        rintro rfl
        cases hdigit
      · rfl
  obtain ⟨a, b, hhours, hpadded⟩ := exists_digits z.hours
  have hsize : z.size = a.val.digitChar :: b.val.digitChar :: z.behind := by
    rw [OffsetText.size, hpadded]
    rfl
  have hletter : b.val.digitChar ≠ 'b' ∧ b.val.digitChar ≠ 'x' := by
    have hdigit := isDigit_digitChar b
    constructor <;> intro hb <;> rw [hb] at hdigit <;> cases hdigit
  rw [integerValue, hfilter, readSign_text]
  dsimp only
  split
  · next heq =>
    rw [hsize] at heq
    cases heq
  · next heq =>
    rw [hsize] at heq
    exact absurd (List.cons.inj (List.cons.inj heq).2).1 hletter.1
  · next heq =>
    rw [hsize] at heq
    exact absurd (List.cons.inj (List.cons.inj heq).2).1 hletter.2
  · next heq =>
    rw [hsize] at heq
    have hless : z.hours.val < 10 := by
      have hzero := (digitChar_eq_zero a).1 (List.cons.inj heq).1
      omega
    obtain ⟨digits, hne, hshort, hdigits, hoctal⟩ :=
      exists_sizeDigits z (colon_not_mem_size z h hless)
    obtain ⟨n, hn⟩ := exists_wholeIn (.inl rfl) hne (hoctal h hless) hshort
    rw [hdigits, hn]
    exact ⟨_, rfl⟩
  · split
    · next hcolon =>
      obtain ⟨places, hplaces⟩ := exists_places z (List.contains_iff_mem.1 hcolon)
      rw [hplaces]
      exact ⟨_, rfl⟩
    · next hcolon =>
      rw [List.contains_iff_mem] at hcolon
      obtain ⟨digits, hne, hshort, hdigits, -⟩ := exists_sizeDigits z hcolon
      obtain ⟨n, hn⟩ := exists_wholeIn (.inr rfl) hne (fun d _ => d.isLt) hshort
      rw [hdigits, hn]
      exact ⟨_, rfl⟩

end Yaml.Scalar

end SqlFragments
