import Mathlib
import SqlFragments.Literal.OfValue
import SqlFragments.Proofs.Literal.Sign
import SqlFragments.Proofs.Number.Reading
import SqlFragments.Render.Evaluate

/-!
# Exact literals

The literal of a finite number is in plain notation and reads back exactly: a decimal number and a
whole floating point number as themselves, any other floating point number as its shortest text.
Numbers of one whole value have one literal, however they are kept.
-/

namespace SqlFragments

open Text Number

namespace Literal

/-! ## No sign for zero -/

theorem ne_negativeZero {s : String} {q : ℚ} (h : readPlain? s.toList = some q) (hq : q ≠ 0) :
    s ≠ "-0" := by
  rintro rfl
  have hzero : readPlain? "-0".toList = some 0 := by decide +kernel
  rw [hzero] at h
  exact hq (Option.some.inj h).symm

theorem toString_ne_negativeZero (n : Int) : toString n ≠ "-0" := by
  by_cases hzero : n = 0
  · subst hzero
    decide
  · exact ne_negativeZero (readPlain?_toString n) (by exact_mod_cast hzero)

/-! ## Numbers of each kind -/

theorem exact_decimalText {x : Decimal} {q : ℚ} {s : String} (h : x.toRat? = some q)
    (hs : decimalText x = .ok s) : s ≠ "-0" ∧ readPlain? s.toList = some q := by
  cases x with
  | finite negative coefficient exponent =>
    have hread := readPlain?_decimalText hs
    rw [Decimal.toRat?_finite, Option.some.injEq] at h
    rw [h] at hread
    refine ⟨?_, hread⟩
    by_cases hzero : q = 0
    · rw [decimalText_of_whole (n := 0) (by rw [Decimal.toRat?_finite, h, hzero]; rfl)] at hs
      rw [eq_toString_of_wholeText hs]
      exact toString_ne_negativeZero 0
    · exact ne_negativeZero hread hzero
  | _ => cases h

theorem exact_doubleText_of_whole {x : Double} {n : Int} {s : String}
    (h : x.toRat? = some (n : ℚ)) (hs : doubleText x = .ok s) :
    s ≠ "-0" ∧ readPlain? s.toList = some (n : ℚ) := by
  rw [doubleText_of_whole h] at hs
  rw [eq_toString_of_wholeText hs]
  exact ⟨toString_ne_negativeZero n, readPlain?_toString n⟩

/-- A number with a part behind the point is written as its shortest text is read. -/
theorem exact_doubleText {x : Double} {q : ℚ} {s : String} (h : x.toRat? = some q)
    (hpart : ∀ n : Int, q ≠ n) (hs : doubleText x = .ok s) :
    ∃ value, (x.IsCanonical → ∃ d, x.IsShortest d ∧ d.toRat? = some value) ∧
      s ≠ "-0" ∧ readPlain? s.toList = some value := by
  cases x with
  | finite negative mantissa exponent =>
    have hnone : Double.toNat? mantissa exponent = none := by
      rw [Option.eq_none_iff_forall_ne_some]
      intro m hm
      rw [Double.toRat?_of_toNat? hm, Option.some.injEq] at h
      exact hpart _ h.symm
    have hmantissa := Double.ne_zero_of_toNat? hnone
    rw [doubleText, hnone] at hs
    refine ⟨_, fun hcanonical =>
      Double.exists_isShortest (hcanonical _ _ _ rfl hmantissa) negative, ?_⟩
    exact exact_decimalText (Decimal.toRat?_finite _ _ _) hs
  | _ => cases h

end Literal

/-- Whether a value is a number. A truth value is none here, although it compares like one. -/
def Value.isNumeral : Value → Bool
  | int _ | float _ _ | decimal _ _ => true
  | _ => false

theorem answer_literal_of_whole {value : Value} {n : Int} (hnumber : value.isNumeral = true)
    (h : value.rational? = some (n : ℚ)) (env : Environment) (timezone : Value) :
    (literal env value timezone).answer = (Literal.wholeText n).map .text := by
  have hwhole : Literal.scalar? env.hostMinutes timezone value = some (Literal.wholeText n) := by
    cases value with
    | int m => rw [Literal.scalar?, Int.cast_inj.1 (Option.some.inj h)]
    | float label x => rw [Literal.scalar?, Literal.doubleText_of_whole h]
    | decimal label x => rw [Literal.scalar?, Literal.decimalText_of_whole h]
    | bool b => cases hnumber
    | _ => cases h
  rw [literal, LiteralEscaper.write, hwhole]
  cases Literal.wholeText n <;> rfl

/-- Numbers are written exactly, in plain decimal notation. A decimal number and a whole floating
point number read back as themselves, another floating point number as the value of its shortest
text, and no text is a zero with a sign. Numbers of one whole value have one literal. Only a whole
number that is too long is not written. -/
theorem Literal.numberText_exact :
    (∀ (label : Label) (x : Decimal) (q : ℚ), x.toRat? = some q →
      ((Value.decimal label x).isOverlong = false →
        ∃ s, numberText (.decimal label x) = .ok s ∧ s ≠ "-0" ∧ readPlain? s.toList = some q) ∧
      ((Value.decimal label x).isOverlong = true →
        numberText (.decimal label x) = .error .badValue)) ∧
    (∀ (label : Label) (x : Double) (q : ℚ), x.toRat? = some q →
      ((Value.float label x).isOverlong = false →
        ∃ s value, numberText (.float label x) = .ok s ∧ s ≠ "-0" ∧
          readPlain? s.toList = some value ∧
          if q.isInt then value = q
          else x.IsCanonical → ∃ d, x.IsShortest d ∧ d.toRat? = some value) ∧
      ((Value.float label x).isOverlong = true →
        numberText (.float label x) = .error .badValue)) ∧
    ∀ (env : Environment) (timezone value other : Value) (n : Int),
      value.isNumeral = true → other.isNumeral = true →
      value.rational? = some (n : ℚ) → other.rational? = some (n : ℚ) →
      (Number.isOverlong n.natAbs = false →
        (literal env value timezone).answer = .ok (.text (toString n)) ∧
        (literal env other timezone).answer = .ok (.text (toString n))) ∧
      (Number.isOverlong n.natAbs = true →
        (literal env value timezone).answer = .error .badValue ∧
        (literal env other timezone).answer = .error .badValue) := by
  refine ⟨fun label x q h => ⟨fun hshort => ?_, fun hlong => ?_⟩,
    fun label x q h => ⟨fun hshort => ?_, fun hlong => ?_⟩,
    fun env timezone value other n hvalue hother hn hm => ?_⟩
  · cases hs : decimalText x with
    | ok s => exact ⟨s, hs, exact_decimalText h hs⟩
    | error cause =>
      rw [(decimalText_eq_error_iff.1 hs).1] at hshort
      cases hshort
  · exact decimalText_eq_error_iff.2 ⟨hlong, rfl⟩
  · cases hs : doubleText x with
    | ok s =>
      by_cases hwhole : q.isInt = true
      · have hq : q = (q.num : ℚ) := Rat.eq_num_of_isInt hwhole
        obtain ⟨hsign, hread⟩ := exact_doubleText_of_whole (hq ▸ h) hs
        refine ⟨s, q.num, hs, hsign, hread, ?_⟩
        rw [if_pos hwhole]
        exact hq.symm
      · have hpart : ∀ n : Int, q ≠ n := by
          rintro n rfl
          exact hwhole rfl
        obtain ⟨value, hshortest, hexact⟩ := exact_doubleText h hpart hs
        refine ⟨s, value, hs, hexact.1, hexact.2, ?_⟩
        rwa [if_neg hwhole]
    | error cause =>
      rw [(doubleText_eq_error_iff.1 hs).1] at hshort
      cases hshort
  · exact doubleText_eq_error_iff.2 ⟨hlong, rfl⟩
  · rw [answer_literal_of_whole hvalue hn env timezone,
      answer_literal_of_whole hother hm env timezone]
    refine ⟨fun hshort => ?_, fun hlong => ?_⟩
    · rw [wholeText_of_short hshort]
      exact ⟨rfl, rfl⟩
    · rw [wholeText_of_overlong hlong]
      exact ⟨rfl, rfl⟩

/-- One and a half below zero, the number nearest to a tenth, and a hundred that is kept as a whole
number and as a decimal one. -/
theorem Literal.numberText_exact_hundred :
    (∃ s, numberText (.decimal 0 (.finite true 150 (-2))) = .ok s ∧ s ≠ "-0" ∧
      readPlain? s.toList = some (-3 / 2)) ∧
    (∃ s value, numberText (.float 0 (.finite false 7205759403792794 (-56))) = .ok s ∧ s ≠ "-0" ∧
      readPlain? s.toList = some value ∧
      ∃ d, (Double.finite false 7205759403792794 (-56)).IsShortest d ∧ d.toRat? = some value) ∧
    (literal {} (.int 100) .null).answer = .ok (.text (toString (100 : Int))) ∧
    (literal {} (.decimal 0 (.finite false 1 2)) .null).answer =
      .ok (.text (toString (100 : Int))) := by
  refine ⟨(Literal.numberText_exact.1 0 (.finite true 150 (-2)) (-3 / 2) (by decide +kernel)).1
      (by decide +kernel), ?_,
    (Literal.numberText_exact.2.2 {} .null (.int 100) (.decimal 0 (.finite false 1 2)) 100 rfl rfl
      rfl (by decide +kernel)).1 (by decide +kernel)⟩
  obtain ⟨s, value, hs, hsign, hread, hshortest⟩ :=
    (Literal.numberText_exact.2.1 0 (.finite false 7205759403792794 (-56))
      (3602879701896397 / 36028797018963968) (by decide +kernel)).1 (by decide +kernel)
  rw [if_neg (by decide +kernel)] at hshortest
  refine ⟨s, value, hs, hsign, hread, hshortest ?_⟩
  intro negative mantissa exponent h _
  cases h
  exact ⟨by decide, by decide, by decide, by decide, by decide⟩

end SqlFragments
