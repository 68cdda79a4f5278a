import SqlFragments.Proofs.Number.Notation
import SqlFragments.Proofs.Outcome
import SqlFragments.Proofs.Text.Firm
import SqlFragments.Proofs.Text.Indent
import SqlFragments.Render.Evaluate

/-!
# Tight literals

The literals of the library are never empty, neither begin nor end with a blank and have no line
break, whatever the value: numbers hold no blank at all, and all else stands between marks, where
line breaks are written as letters.
-/

namespace SqlFragments

open Text Number

/-! ## Numbers -/

private def isNumeric (c : Char) : Bool :=
  c.isDigit || c == '-' || c == '.'

private theorem isBlank_of_isNumeric {c : Char} (h : isNumeric c = true) : isBlank c = false := by
  simp only [isNumeric, Bool.or_eq_true, beq_iff_eq] at h
  rcases h with (hd | rfl) | rfl
  · exact isBlank_of_isDigit hd
  · rfl
  · rfl

private theorem firm_of_isNumeric {cs : List Char} (hne : cs ≠ [])
    (h : ∀ c ∈ cs, isNumeric c = true) : Firm cs :=
  .of_forall hne fun c hc => isBlank_of_isNumeric (h c hc)

private theorem isNumeric_decimalDigits (n : Nat) : ∀ c ∈ decimalDigits n, isNumeric c = true := by
  intro c hc
  have hdigit := Nat.isDigit_of_mem_toDigits (by decide) (by decide) hc
  simp [isNumeric, hdigit]

private theorem isNumeric_sign (negative : Bool) :
    ∀ c ∈ Decimal.sign negative, isNumeric c = true := by
  intro c hc
  cases negative with
  | false => cases hc
  | true =>
    rw [List.mem_singleton.1 hc]
    rfl

private theorem isNumeric_zeros (n : Nat) : ∀ c ∈ List.replicate n '0', isNumeric c = true := by
  intro c hc
  rw [List.eq_of_mem_replicate hc]
  rfl

private theorem firm_int (n : Int) : Firm (toString n).toList := by
  rw [toList_toString]
  apply firm_of_isNumeric
  · have hne : decimalDigits n.natAbs ≠ [] := Nat.toDigits_ne_nil
    simp [hne]
  · intro c hc
    rcases List.mem_append.1 hc with hs | hd
    · exact isNumeric_sign _ c hs
    · exact isNumeric_decimalDigits _ c hd

private theorem firm_wholeText {n : Int} {s : String} (h : Literal.wholeText n = .ok s) :
    Firm s.toList := by
  rw [Literal.eq_toString_of_wholeText h]
  exact firm_int n

private theorem isNumeric_pointed {digits : List Char} (h : ∀ c ∈ digits, isNumeric c = true)
    (places : Nat) : ∀ c ∈ Decimal.pointed digits places, isNumeric c = true := by
  intro c hc
  have hfilled : ∀ c ∈ List.replicate (places + 1 - digits.length) '0' ++ digits,
      isNumeric c = true := by
    intro c hc
    rcases List.mem_append.1 hc with hz | hd
    · exact isNumeric_zeros _ c hz
    · exact h c hd
  rcases List.mem_append.1 hc with hfront | hback
  · exact hfilled c (List.mem_of_mem_take hfront)
  · rcases List.mem_cons.1 hback with rfl | hback
    · rfl
    · exact hfilled c (List.mem_of_mem_drop hback)

private theorem firm_plain (negative : Bool) (coefficient : Nat) (exponent : Int) :
    Firm (Decimal.plain negative coefficient exponent) := by
  have hdigits := isNumeric_decimalDigits coefficient
  have hne : decimalDigits coefficient ≠ [] := Nat.toDigits_ne_nil
  unfold Decimal.plain
  split
  · apply firm_of_isNumeric
    · simp [hne]
    · intro c hc
      rcases List.mem_append.1 hc with hs | hd
      · exact isNumeric_sign _ c hs
      · rcases List.mem_append.1 hd with hd | hz
        · exact hdigits c hd
        · exact isNumeric_zeros _ c hz
  · apply firm_of_isNumeric
    · simp [Decimal.pointed]
    · intro c hc
      rcases List.mem_append.1 hc with hs | hd
      · exact isNumeric_sign _ c hs
      · exact isNumeric_pointed hdigits _ c hd

private theorem firm_infinityText (negative : Bool) :
    Firm (Literal.infinityText negative).toList := by
  cases negative
  · exact .between "Infinity".toList rfl rfl (by decide)
  · exact .between "-Infinity".toList rfl rfl (by decide)

private theorem firm_notANumber : Firm "'NaN'".toList :=
  .between "NaN".toList rfl rfl (by decide)

private theorem firm_decimalText {x : Decimal} {s : String} (h : Literal.decimalText x = .ok s) :
    Firm s.toList := by
  cases x with
  | finite negative coefficient exponent =>
    rw [Literal.decimalText] at h
    split at h
    · exact firm_wholeText h
    · cases h
      rw [String.toList_ofList]
      exact firm_plain negative coefficient exponent
  | infinite negative =>
    cases h
    exact firm_infinityText negative
  | nan negative signaling payload =>
    cases h
    exact firm_notANumber

private theorem firm_doubleText {x : Double} {s : String} (h : Literal.doubleText x = .ok s) :
    Firm s.toList := by
  cases x with
  | finite negative mantissa exponent =>
    rw [Literal.doubleText] at h
    split at h
    · exact firm_wholeText h
    · exact firm_decimalText h
  | infinite negative =>
    cases h
    exact firm_infinityText negative
  | nan =>
    cases h
    exact firm_notANumber

/-! ## Marked texts -/

private theorem newline_not_mem_escaped (cs : List Char) : '\n' ∉ Literal.escaped cs := by
  induction cs with
  | nil => simp [Literal.escaped]
  | cons c rest ih =>
    rw [Literal.escaped]
    split
    · next letter hletter =>
      have hne : letter ≠ '\n' := by
        rintro rfl
        revert hletter
        unfold Literal.escapeLetter?
        split <;> simp
      simp [hne.symm, ih]
    · next hnone =>
      have hne : '\n' ≠ c := by
        rintro rfl
        cases hnone
      simp [hne, ih]

private theorem newline_not_mem_toDigits (n : Nat) : '\n' ∉ Nat.toDigits 16 n := by
  induction n using Nat.strong_induction_on with
  | _ n ih =>
    rw [Nat.toDigits_eq_if (by decide)]
    split
    · simp
    · simp [ih (n / 16) (by omega)]

private theorem newline_not_mem_hex (width n : Nat) : '\n' ∉ hex width n := by
  have hzeros : '\n' ∉ List.replicate (width - (Nat.toDigits 16 n).length) '0' := by
    rw [List.mem_replicate]
    exact fun h => absurd h.2 (by decide)
  rw [hex, List.mem_append, not_or]
  exact ⟨hzeros, newline_not_mem_toDigits n⟩

private theorem firm_quote (s : String) : Firm (Literal.quote s).toList := by
  rw [Literal.toList_quote]
  exact .between _ rfl rfl (newline_not_mem_escaped s.toList)

private theorem firm_bytesText (data : List UInt8) : Firm (Literal.bytesText data).toList := by
  have hbytes : '\n' ∉ '\'' :: hexBytes data := by
    rw [List.mem_cons, hexBytes, List.mem_flatMap, not_or]
    exact ⟨by decide, fun ⟨b, _, h⟩ => newline_not_mem_hex 2 b.toNat h⟩
  rw [Literal.bytesText, String.toList_ofList]
  exact .between _ rfl rfl hbytes

theorem firm_scalar {hostMinutes : Rat} {timezone value : Value} {s : String}
    (h : Literal.scalar? hostMinutes timezone value = some (.ok s)) : Firm s.toList := by
  cases value with
  | null =>
    cases h
    exact .between ['U', 'L'] rfl rfl (by decide)
  | bool b =>
    cases h
    cases b
    · exact .between ['a', 'l', 's'] rfl rfl (by decide)
    · exact .between ['r', 'u'] rfl rfl (by decide)
  | int n => exact firm_wholeText (Option.some.inj h)
  | float label x => exact firm_doubleText (Option.some.inj h)
  | decimal label x => exact firm_decimalText (Option.some.inj h)
  | text s =>
    cases h
    exact firm_quote s
  | dateTime moment =>
    rw [Literal.scalar?, Option.some.injEq, Except.ok.injEq] at h
    rw [← h]
    exact firm_quote _
  | date day =>
    rw [Literal.scalar?, Option.some.injEq, Except.ok.injEq] at h
    rw [← h]
    exact firm_quote _
  | bytes form data =>
    cases h
    exact firm_bytesText data
  | list | tuple | dict | object | function | fragment => cases h

theorem tight_scalar {hostMinutes : Rat} {timezone value : Value} {s : String}
    (h : Literal.scalar? hostMinutes timezone value = some (.ok s)) : Tight s.toList :=
  (firm_scalar h).toTight

/-! ## Structured texts -/

namespace Json

private theorem newline_not_mem_quotedChar (c : Char) : '\n' ∉ quotedChar c := by
  have hunit (n : Nat) : '\n' ∉ '\\' :: 'u' :: hex 4 n := by
    simp [newline_not_mem_hex]
  unfold quotedChar
  dsimp only
  split_ifs with hmark hbreak
  · rcases hmark with rfl | rfl <;> decide
  · decide
  · decide
  · decide
  · decide
  · decide
  · rw [List.mem_singleton]
    exact Ne.symm hbreak
  · exact hunit _
  · rw [List.mem_append, not_or]
    exact ⟨hunit _, hunit _⟩

private theorem newline_not_mem_quotedText (s : String) : '\n' ∉ (quotedText s).toList := by
  have hchars : '\n' ∉ s.toList.flatMap quotedChar := by
    rw [List.mem_flatMap]
    exact fun ⟨c, _, h⟩ => newline_not_mem_quotedChar c h
  rw [quotedText, String.toList_ofList, List.mem_append, List.mem_cons, not_or, not_or]
  exact ⟨⟨by decide, hchars⟩, by decide⟩

private theorem newline_not_mem_floatText (x : Double) : '\n' ∉ (floatText x).toList := by
  cases x with
  | nan => decide
  | infinite negative => cases negative <;> decide
  | finite negative mantissa exponent =>
    have hnumeric := Double.numeric_write {} (Double.shortest mantissa exponent).1
      (Double.shortest mantissa exponent).2
    have htext : floatText (.finite negative mantissa exponent) =
        (Double.finite negative mantissa exponent).text := rfl
    rw [htext, Double.text, String.toList_ofList, List.mem_append, not_or]
    exact ⟨fun h => absurd (Decimal.isMark_sign negative _ h) (by decide),
      fun h => absurd (hnumeric.marks _ h) (by decide)⟩

private theorem newline_not_mem_enclosed {opening closing separator : String} {texts : List String}
    (hopening : '\n' ∉ opening.toList) (hclosing : '\n' ∉ closing.toList)
    (hseparator : '\n' ∉ separator.toList) (h : ∀ s ∈ texts, '\n' ∉ s.toList) :
    '\n' ∉ (opening ++ String.intercalate separator texts ++ closing).toList := by
  have hjoined : '\n' ∉ (String.intercalate separator texts).toList := by
    rw [String.toList_intercalate]
    intro hmem
    rcases mem_intercalate hmem with hmem | ⟨part, hpart, hmem⟩
    · exact hseparator hmem
    · obtain ⟨s, hs, rfl⟩ := List.mem_map.1 hpart
      exact h s hs hmem
  rw [String.toList_append, String.toList_append, List.mem_append, List.mem_append, not_or, not_or]
  exact ⟨⟨hopening, hjoined⟩, hclosing⟩

structure Spacing.Unbroken (spacing : Spacing) : Prop where
  comma : '\n' ∉ spacing.comma.toList
  colon : '\n' ∉ spacing.colon.toList

variable {spacing : Spacing}

mutual

theorem newline_not_mem_write (h : spacing.Unbroken) (tree : Json) :
    '\n' ∉ (tree.write spacing).toList := by
  cases tree with
  | null =>
    rw [write]
    decide
  | bool b =>
    rw [write]
    cases b <;> decide
  | int n => exact (firm_int n.number).unbroken
  | float x => exact newline_not_mem_floatText x
  | text s => exact newline_not_mem_quotedText s
  | array items =>
    exact newline_not_mem_enclosed (by decide) (by decide) h.comma
      (newline_not_mem_writeEach h items)
  | object members =>
    exact newline_not_mem_enclosed (by decide) (by decide) h.comma
      (newline_not_mem_writeMembers h members)
termination_by structural tree

theorem newline_not_mem_writeEach (h : spacing.Unbroken) (items : List Json) :
    ∀ s ∈ writeEach spacing items, '\n' ∉ s.toList := by
  cases items with
  | nil => nofun
  | cons item rest =>
    rw [writeEach, List.forall_mem_cons]
    exact ⟨newline_not_mem_write h item, newline_not_mem_writeEach h rest⟩
termination_by structural items

theorem newline_not_mem_writeMembers (h : spacing.Unbroken) (members : List (String × Json)) :
    ∀ s ∈ writeMembers spacing members, '\n' ∉ s.toList := by
  cases members with
  | nil => nofun
  | cons member rest =>
    obtain ⟨name, value⟩ := member
    have hvalue := newline_not_mem_write h value
    rw [writeMembers, List.forall_mem_cons]
    refine ⟨?_, newline_not_mem_writeMembers h rest⟩
    rw [String.toList_append, String.toList_append, List.mem_append, List.mem_append, not_or,
      not_or]
    exact ⟨⟨newline_not_mem_quotedText name, h.colon⟩, hvalue⟩
termination_by structural members

end

def isMarked : Json → Bool
  | text _ | array _ | object _ => true
  | _ => false

theorem firm_write {tree : Json} (h : tree.isMarked = true) :
    Firm (tree.write .tight).toList := by
  have hunbroken : '\n' ∉ (tree.write .tight).toList :=
    newline_not_mem_write ⟨by decide, by decide⟩ tree
  have htight : Tight (tree.write .tight).toList := by
    cases tree with
    | text s =>
      rw [write, quotedText, String.toList_ofList]
      exact .between _ rfl rfl
    | array items =>
      rw [write, String.toList_append, String.toList_append]
      exact .between _ rfl rfl
    | object members =>
      rw [write, String.toList_append, String.toList_append]
      exact .between _ rfl rfl
    | null | bool | int | float => cases h
  exact ⟨htight, hunbroken⟩

end Json

private theorem isMarked_of_json {env : Environment} {hostMinutes : Rat} {timezone value : Value}
    {tree : Json} (hnone : Literal.scalar? hostMinutes timezone value = none)
    (h : (json env value).answer = .ok tree) : tree.isMarked = true := by
  cases value with
  | list | tuple | dict | object | function | fragment =>
    simp only [json] at h
    obtain ⟨_, _, h⟩ := Outcome.answer_bind_eq_ok.1 h
    cases h
    rfl
  | null | bool | int | float | decimal | text | dateTime | date | bytes => cases hnone

/-! ## Literals -/

/-- Every literal of the library is firm, whatever the value. -/
theorem firm_of_write {env : Environment} {value timezone literal : Value}
    (h : (LiteralEscaper.standard.write env value timezone fun _ => json env value).answer =
      .ok literal) : ∃ s, literal = .text s ∧ Firm s.toList := by
  rw [LiteralEscaper.write] at h
  split at h
  · next written hwritten =>
    obtain ⟨s, rfl, h⟩ := Outcome.answer_bind_eq_ok.1 h
    cases h
    exact ⟨s, rfl, firm_scalar hwritten⟩
  · next hnone =>
    obtain ⟨tree, ht, h⟩ := Outcome.answer_bind_eq_ok.1 h
    cases h
    exact ⟨_, rfl, Json.firm_write (isMarked_of_json hnone ht)⟩

/-- Whether all literals that are written under a context are tight texts. -/
def Context.WritesTight (env : Environment) (context : Context) : Prop :=
  ∀ value literal : Value,
    (context.escape.write env value context.timezone fun _ => json env value).answer =
      .ok literal →
    ∃ s, literal = .text s ∧ Tight s.toList

theorem Context.writesTight_of_standard {env : Environment} {context : Context}
    (h : context.escape = .standard) : context.WritesTight env := by
  intro value literal hw
  rw [h] at hw
  obtain ⟨s, rfl, hfirm⟩ := firm_of_write hw
  exact ⟨s, rfl, hfirm.toTight⟩

end SqlFragments
