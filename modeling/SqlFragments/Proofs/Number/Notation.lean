import Mathlib
import SqlFragments.Proofs.Number.Plain
import SqlFragments.Proofs.Number.Shortest
import SqlFragments.Proofs.Text.Tight

/-!
# Texts of double precision numbers

However the digits of a number are laid out, with zeros behind them, a point among them or an
exponent, the reader of decimal numbers finds the same digits and the same place for them. Read as a
double precision number, the text is the number again, and no text with fewer digits is.
-/

namespace SqlFragments.Number

open Text

/-! ## Reading digits with a point and an exponent -/

namespace Decimal

private def readTail? : List Char → Option Int
  | [] => some 0
  | _ :: rest => readExponent? rest

private theorem readUnsigned?_eq {body tail : List Char} {place : Int}
    (hbody : 'e' ∉ body ∧ 'E' ∉ body) (htail : ∀ c ∈ tail.head?, c = 'e')
    (hplace : readTail? tail = some place) :
    readUnsigned? (body ++ tail) = (do
      let whole := body.takeWhile (· != '.')
      let fraction := (body.drop whole.length).drop 1
      if whole.isEmpty && fraction.isEmpty then none
      let coefficient ← digits? (whole ++ fraction)
      return (coefficient, place - fraction.length)) := by
  have htake : (body ++ tail).takeWhile (fun c => c != 'e' && c != 'E') = body := by
    have hall : ∀ c ∈ body, (c != 'e' && c != 'E') = true := by
      intro c hc
      simp only [Bool.and_eq_true, bne_iff_ne]
      exact ⟨fun h => hbody.1 (h ▸ hc), fun h => hbody.2 (h ▸ hc)⟩
    rw [List.takeWhile_append_of_pos hall]
    cases tail with
    | nil => simp
    | cons c rest => simp [htail c rfl]
  unfold readUnsigned?
  dsimp only
  rw [htake, List.drop_left]
  cases tail with
  | nil =>
    obtain rfl : 0 = place := Option.some.inj hplace
    rfl
  | cons c rest =>
    rw [readTail?] at hplace
    dsimp only
    rw [hplace]
    rfl

variable {whole rest tail : List Char} {n : Nat} {place : Int}

theorem readUnsigned?_row (h : Spells whole n) (hne : whole ≠ [])
    (htail : ∀ c ∈ tail.head?, c = 'e') (hplace : readTail? tail = some place) :
    readUnsigned? (whole ++ tail) = some (n, place) := by
  have hall : ∀ c ∈ whole, (c != '.') = true := by
    intro c hc
    rw [bne_iff_ne]
    exact fun hpoint => h.not_mem rfl (hpoint ▸ hc)
  rw [readUnsigned?_eq ⟨h.not_mem rfl, h.not_mem rfl⟩ htail hplace]
  simp [List.takeWhile_eq_self_iff.2 hall, hne, h.digits?_eq]

theorem readUnsigned?_pointed (h : Spells (whole ++ rest) n) (hne : whole ≠ [])
    (htail : ∀ c ∈ tail.head?, c = 'e') (hplace : readTail? tail = some place) :
    readUnsigned? ((whole ++ '.' :: rest) ++ tail) = some (n, place - rest.length) := by
  have hletter : ∀ c : Char, c.isDigit = false → c ≠ '.' → c ∉ whole ++ '.' :: rest := by
    intro c hc hpoint hmem
    rw [List.mem_append, List.mem_cons] at hmem
    have hnot := h.not_mem hc
    rw [List.mem_append, not_or] at hnot
    rcases hmem with hmem | hmem | hmem
    · exact hnot.1 hmem
    · exact hpoint hmem
    · exact hnot.2 hmem
  have htake : (whole ++ '.' :: rest).takeWhile (· != '.') = whole := by
    have hall : ∀ c ∈ whole, (c != '.') = true := by
      intro c hc
      rw [bne_iff_ne]
      exact fun hpoint => h.not_mem rfl (List.mem_append_left _ (hpoint ▸ hc))
    rw [List.takeWhile_append_of_pos hall]
    simp
  rw [readUnsigned?_eq ⟨hletter 'e' rfl (by decide), hletter 'E' rfl (by decide)⟩ htail hplace]
  simp [htake, hne, h.digits?_eq]

theorem readUnsigned?_scientific (ds : List Char) (htail : ∀ c ∈ tail.head?, c = 'e')
    (hplace : readTail? tail = some place) : Spells ds n → ds ≠ [] →
    readUnsigned? ((match ds with
      | first :: second :: rest => first :: '.' :: second :: rest
      | short => short) ++ tail) = some (n, place - (ds.length - 1)) := by
  intro h hne
  match ds with
  | [] => exact absurd rfl hne
  | [digit] =>
    rw [readUnsigned?_row h hne htail hplace]
    simp
  | first :: second :: rest =>
    have hread := readUnsigned?_pointed (show Spells ([first] ++ second :: rest) n from h)
      (List.cons_ne_nil first []) htail hplace
    simpa using hread

private theorem readTail?_exponent (width : Nat) (e : Int) :
    readTail? ('e' :: (if e < 0 then '-' else '+') :: padded width e.natAbs) = some e := by
  have hspells := Spells.padded width e.natAbs
  have hne : (padded width e.natAbs).isEmpty = false := by
    simp [padded, decimalDigits_ne_nil]
  rw [readTail?]
  split
  · next hnegative =>
    simp [readExponent?, hne, hspells.digits?_eq, abs_of_neg hnegative]
  · next hpositive =>
    simp [readExponent?, hne, hspells.digits?_eq, abs_of_nonneg (not_lt.1 hpositive)]

/-! ## Reading a number with its sign -/

def isMark (c : Char) : Bool := c.isDigit || c == '.' || c == 'e' || c == '+' || c == '-'

theorem isBlank_of_isMark {c : Char} (h : isMark c = true) : isBlank c = false := by
  simp only [isMark, Bool.or_eq_true, beq_iff_eq] at h
  rcases h with (((hdigit | rfl) | rfl) | rfl) | rfl
  · exact isBlank_of_isDigit hdigit
  all_goals rfl

theorem isMark_of_mem {cs : List Char} {n : Nat} (h : Spells cs n) : ∀ c ∈ cs, isMark c = true := by
  intro c hc
  simp [isMark, h.isDigit c hc]

/-- A text that begins with a digit and holds nothing but what numbers are written with. -/
structure Numeric (cs : List Char) : Prop where
  head : ∃ (d : Fin 10) (rest : List Char), cs = d.val.digitChar :: rest
  marks : ∀ c ∈ cs, isMark c = true

theorem Numeric.append {front back : List Char} (hfront : Numeric front)
    (hback : ∀ c ∈ back, isMark c = true) : Numeric (front ++ back) := by
  obtain ⟨d, rest, rfl⟩ := hfront.head
  refine ⟨⟨d, rest ++ back, rfl⟩, fun c hc => ?_⟩
  exact (List.mem_append.1 hc).elim (hfront.marks c) (hback c)

theorem numeric_of_spells {cs : List Char} (h : Spells cs n) (hne : cs ≠ []) : Numeric cs :=
  ⟨h.head hne, isMark_of_mem h⟩

theorem numeric_scientific (ds : List Char) : Spells ds n → ds ≠ [] →
    Numeric (match ds with
      | first :: second :: rest => first :: '.' :: second :: rest
      | short => short) := by
  intro h hne
  match ds with
  | [] => exact absurd rfl hne
  | [digit] => exact numeric_of_spells h hne
  | first :: second :: rest =>
    obtain ⟨d, rest', heq⟩ := h.head hne
    obtain ⟨rfl, -⟩ := List.cons.inj heq
    refine ⟨⟨d, _, rfl⟩, fun c hc => ?_⟩
    rw [List.mem_cons, List.mem_cons] at hc
    rcases hc with rfl | rfl | hc
    · exact isMark_of_mem h _ (List.mem_cons_self ..)
    · rfl
    · exact isMark_of_mem h c (List.mem_cons_of_mem _ hc)

theorem isMark_sign (negative : Bool) : ∀ c ∈ sign negative, isMark c = true := by
  intro c hc
  cases negative with
  | false => cases hc
  | true =>
    rw [List.mem_singleton.1 hc]
    rfl

theorem trim_signed {cs : List Char} (h : Numeric cs) (negative : Bool) :
    trim (sign negative ++ cs) = sign negative ++ cs := by
  apply trim_of_forall
  intro c hc
  exact isBlank_of_isMark ((List.mem_append.1 hc).elim (isMark_sign negative c) (h.marks c))

theorem underscore_not_mem_signed {cs : List Char} (h : Numeric cs) (negative : Bool) :
    '_' ∉ sign negative ++ cs := by
  intro hmem
  have hmark : isMark '_' = true :=
    (List.mem_append.1 hmem).elim (isMark_sign negative '_') (h.marks '_')
  exact absurd hmark (by decide)

theorem read?_signed {cs : List Char} (h : Numeric cs) (negative : Bool) :
    read? (String.ofList (sign negative ++ cs)) =
      (readUnsigned? cs).map fun size => finite negative size.1 size.2 := by
  have hgaps : (sign negative ++ cs).filter (· != '_') = sign negative ++ cs := by
    rw [List.filter_eq_self]
    intro c hc
    rw [bne_iff_ne]
    rintro rfl
    exact underscore_not_mem_signed h negative hc
  have hdigit : ∀ d : Fin 10, d.val.digitChar.toLower = d.val.digitChar ∧
      d.val.digitChar ∉ ['i', 'n', 's', '-', '+'] := by decide
  obtain ⟨d, rest, rfl⟩ := h.head
  obtain ⟨hlower, hletter⟩ := hdigit d
  simp only [List.mem_cons, List.not_mem_nil, or_false, not_or] at hletter
  have hsign : readSign (sign negative ++ d.val.digitChar :: rest) =
      (negative, d.val.digitChar :: rest) := by
    cases negative with
    | true => rfl
    | false =>
      rw [sign, if_neg (by decide), List.nil_append]
      unfold readSign
      split
      · next heq => exact absurd (List.cons.inj heq).1 hletter.2.2.2.1
      · next heq => exact absurd (List.cons.inj heq).1 hletter.2.2.2.2
      · rfl
  have hword : ∀ (c : Char) (word : List Char), d.val.digitChar ≠ c →
      (d.val.digitChar :: rest).map Char.toLower ≠ c :: word := by
    intro c word hne heq
    rw [List.map_cons, hlower] at heq
    exact hne (List.cons.inj heq).1
  have hprefix : ∀ (c : Char) (word : List Char), d.val.digitChar ≠ c →
      (c :: word).isPrefixOf ((d.val.digitChar :: rest).map Char.toLower) = false := by
    intro c word hne
    rw [List.map_cons, hlower, List.isPrefixOf_cons_cons, beq_false_of_ne hne.symm, Bool.false_and]
  unfold read?
  rw [String.toList_ofList, trim_signed h, hgaps, hsign]
  dsimp only
  rw [if_neg, if_neg, if_neg]
  · cases readUnsigned? (d.val.digitChar :: rest) <;> rfl
  · rw [show "snan".toList = ['s', 'n', 'a', 'n'] from rfl, hprefix _ _ hletter.2.2.1]
    exact Bool.false_ne_true
  · rw [show "nan".toList = ['n', 'a', 'n'] from rfl, hprefix _ _ hletter.2.1]
    exact Bool.false_ne_true
  · exact not_or.2 ⟨hword _ _ hletter.1, hword _ _ hletter.1⟩

end Decimal

namespace Double

/-! ## Writing -/

theorem readUnsigned?_write (layout : Layout) (digits : Nat) (place : Int) :
    ∃ zeros : Nat, Decimal.readUnsigned? (layout.write digits place) =
      some (digits * 10 ^ zeros, place - zeros) := by
  have hspells := Spells.decimalDigits digits
  have hne := decimalDigits_ne_nil digits
  have hnothing : ∀ c ∈ ([] : List Char).head?, c = 'e' := by simp
  unfold Layout.write
  extract_lets ds leading mantissa
  change Spells ds digits at hspells
  split
  · next hpositional =>
    split
    · next hplace =>
      obtain ⟨count, rfl⟩ := Int.eq_ofNat_of_zero_le hplace
      have hzeros := (hspells.append (Spells.zeros count)).append (Spells.zeros 1)
      rw [List.length_replicate, List.length_replicate, Nat.add_zero, Nat.add_zero] at hzeros
      have hread := Decimal.readUnsigned?_pointed hzeros (by simp [ds, hne]) hnothing rfl
      refine ⟨count + 1, ?_⟩
      rw [pow_succ, ← mul_assoc]
      simpa using hread
    · next hplace =>
      obtain ⟨whole, rest, hpointed, hdigits, hwhole, hlength⟩ :=
        exists_pointed hspells (-place).toNat
      have hread := Decimal.readUnsigned?_pointed hdigits hwhole hnothing rfl
      refine ⟨0, ?_⟩
      rw [hpointed]
      rw [List.append_nil, hlength] at hread
      rw [hread]
      simp
      omega
  · have hexponent := Decimal.readTail?_exponent layout.exponentWidth leading
    have hletter : ∀ c ∈ ('e' :: (if leading < 0 then '-' else '+') ::
        padded layout.exponentWidth leading.natAbs).head?, c = 'e' := by simp
    refine ⟨0, ?_⟩
    rw [pow_zero, mul_one, Nat.cast_zero, sub_zero]
    have hread := Decimal.readUnsigned?_scientific ds hletter hexponent hspells hne
    have hplace : leading - (ds.length - 1) = place := by
      show place + ds.length - 1 - (ds.length - 1) = place
      omega
    rw [hplace] at hread
    exact hread

theorem numeric_write (layout : Layout) (digits : Nat) (place : Int) :
    Decimal.Numeric (layout.write digits place) := by
  have hspells := Spells.decimalDigits digits
  have hdigits := Decimal.numeric_of_spells hspells (decimalDigits_ne_nil digits)
  unfold Layout.write
  extract_lets ds leading mantissa
  split
  · split
    · refine (hdigits.append (Decimal.isMark_of_mem (Spells.zeros _))).append ?_
      simp [Decimal.isMark]
    · obtain ⟨whole, rest, hpointed, hsplit, hwhole, -⟩ := exists_pointed hspells (-place).toNat
      obtain ⟨front, back, hfront, hback, -⟩ := hsplit.of_append
      rw [hpointed]
      refine (Decimal.numeric_of_spells hfront hwhole).append fun c hc => ?_
      rcases List.mem_cons.1 hc with rfl | hc
      · rfl
      · exact Decimal.isMark_of_mem hback c hc
  · have hmantissa := Decimal.numeric_scientific ds hspells (decimalDigits_ne_nil digits)
    refine hmantissa.append fun c hc => ?_
    rw [List.mem_cons, List.mem_cons] at hc
    rcases hc with rfl | rfl | hc
    · rfl
    · split <;> rfl
    · exact Decimal.isMark_of_mem (Spells.padded _ _) c hc

/-- The text of a finite number is read with its shortest digits. -/
theorem read?_text (negative : Bool) (mantissa : Nat) (exponent : Int) :
    ∃ zeros : Nat, Decimal.read? (finite negative mantissa exponent).text =
      some (.finite negative ((shortest mantissa exponent).1 * 10 ^ zeros)
        ((shortest mantissa exponent).2 - zeros)) := by
  obtain ⟨zeros, hread⟩ := readUnsigned?_write {} (shortest mantissa exponent).1
    (shortest mantissa exponent).2
  refine ⟨zeros, ?_⟩
  rw [text, Decimal.read?_signed (numeric_write _ _ _), hread]
  rfl

end Double

end SqlFragments.Number
