import Mathlib
import SqlFragments.Literal.OfValue
import SqlFragments.Proofs.Calendar.Offset
import SqlFragments.Proofs.Number.Sign

/-!
# The leftmost offset of a text

An offset is looked for from the left: a sign, where a blank character counts as plus, and two
digits of any script make one, and what stands before and after it does not matter. A sign with
one digit or none is passed over, and minutes count only where there are two digits of them.
-/

namespace SqlFragments

open Calendar Number Text

namespace Calendar

namespace Offset

/-! ## What stands at a place of a text -/

/-- At a place of a text stand two digits, and this is their number. -/
def DigitsAt (cs : List Char) (place n : Nat) : Prop :=
  ∃ a b tens ones, cs[place]? = some a ∧ cs[place + 1]? = some b ∧
    digitValue? a = some tens ∧ digitValue? b = some ones ∧ n = 10 * tens + ones

/-- At a place of a text stands a sign that two digits follow. -/
def StartsAt (cs : List Char) (place : Nat) : Prop :=
  ∃ c, cs[place]? = some c ∧ (c = '+' ∨ c = '-' ∨ isBlank c = true) ∧
    ∃ n, DigitsAt cs (place + 1) n

/-- The minutes are the two digits at a place, or those behind a colon at it, and zero where both
are missing. -/
def MinutesAt (cs : List Char) (place n : Nat) : Prop :=
  DigitsAt cs place n ∨ (cs[place]? = some ':' ∧ DigitsAt cs (place + 1) n) ∨
    (n = 0 ∧ ∀ m, ¬ DigitsAt cs place m ∧ ¬ (cs[place]? = some ':' ∧ DigitsAt cs (place + 1) m))

/-- What the offset says that starts at a place. Only a hyphen makes it negative. -/
structure ReadsAt (cs : List Char) (place : Nat) (offset : Offset) : Prop where
  starts : StartsAt cs place
  negative : offset.negative = true ↔ cs[place]? = some '-'
  hours : DigitsAt cs (place + 1) offset.hours
  minutes : MinutesAt cs (place + 3) offset.minutes

/-- An offset stands in a text, and none starts left of it. -/
def IsLeftmost (cs : List Char) (offset : Offset) : Prop :=
  ∃ place, ReadsAt cs place offset ∧ ∀ earlier < place, ¬ StartsAt cs earlier

variable {cs : List Char} {place n : Nat} {offset : Offset}

theorem startsAt_cons (c : Char) : StartsAt (c :: cs) (place + 1) ↔ StartsAt cs place := Iff.rfl

theorem minutesAt_cons (c : Char) :
    MinutesAt (c :: cs) (place + 1) n ↔ MinutesAt cs place n := Iff.rfl

theorem readsAt_cons (c : Char) :
    ReadsAt (c :: cs) (place + 1) offset ↔ ReadsAt cs place offset :=
  ⟨fun h => ⟨h.starts, h.negative, h.hours, h.minutes⟩,
    fun h => ⟨h.starts, h.negative, h.hours, h.minutes⟩⟩

/-! ## Digits -/

theorem digitsAt_unique {m : Nat} (h : DigitsAt cs place m) (h' : DigitsAt cs place n) : m = n := by
  obtain ⟨a, b, tens, ones, ha, hb, htens, hones, rfl⟩ := h
  obtain ⟨a', b', tens', ones', ha', hb', htens', hones', rfl⟩ := h'
  obtain rfl := Option.some.inj (ha.symm.trans ha')
  obtain rfl := Option.some.inj (hb.symm.trans hb')
  obtain rfl := Option.some.inj (htens.symm.trans htens')
  obtain rfl := Option.some.inj (hones.symm.trans hones')
  rfl

theorem twoDigits?_eq_some_iff {rest : List Char} :
    twoDigits? cs = some (n, rest) ↔ DigitsAt cs 0 n ∧ rest = cs.drop 2 := by
  constructor
  · intro h
    rcases cs with _ | ⟨a, _ | ⟨b, later⟩⟩
    · cases h
    · cases h
    · rw [twoDigits?] at h
      split at h
      · next tens ones htens hones =>
        obtain ⟨rfl, rfl⟩ := Prod.mk.inj (Option.some.inj h)
        exact ⟨⟨a, b, tens, ones, rfl, rfl, htens, hones, rfl⟩, rfl⟩
      · cases h
  · rintro ⟨⟨a, b, tens, ones, ha, hb, htens, hones, rfl⟩, rfl⟩
    rcases cs with _ | ⟨_, _ | ⟨_, later⟩⟩
    · cases ha
    · cases hb
    · cases ha
      cases hb
      simp only [twoDigits?, htens, hones, List.drop_succ_cons, List.drop_zero]

theorem twoDigits?_eq_none_iff : twoDigits? cs = none ↔ ∀ n, ¬ DigitsAt cs 0 n := by
  rw [Option.eq_none_iff_forall_ne_some]
  exact ⟨fun h n hdigits => h (n, cs.drop 2) (twoDigits?_eq_some_iff.2 ⟨hdigits, rfl⟩),
    fun h found hfound => h found.1 (twoDigits?_eq_some_iff.1 hfound).1⟩

theorem twoDigits?_getD_cases (cs : List Char) :
    DigitsAt cs 0 (((twoDigits? cs).map (·.1)).getD 0) ∨
      (((twoDigits? cs).map (·.1)).getD 0 = 0 ∧ ∀ n, ¬ DigitsAt cs 0 n) := by
  cases hfound : twoDigits? cs with
  | none => exact .inr ⟨rfl, twoDigits?_eq_none_iff.1 hfound⟩
  | some found => exact .inl (twoDigits?_eq_some_iff.1 hfound).1

theorem not_digitsAt_colon (h : cs[place]? = some ':') : ¬ DigitsAt cs place n := by
  have hnone : digitValue? ':' = none := by decide
  rintro ⟨a, b, tens, ones, ha, -, htens, -⟩
  obtain rfl := Option.some.inj (h.symm.trans ha)
  rw [hnone] at htens
  cases htens

/-! ## Minutes -/

theorem minutesAt_minutesAfter (cs : List Char) : MinutesAt cs 0 (minutesAfter cs) := by
  by_cases hcolon : cs[0]? = some ':'
  · obtain ⟨later, rfl⟩ : ∃ later, cs = ':' :: later := by
      cases cs with
      | nil => cases hcolon
      | cons c later => exact ⟨later, by rw [Option.some.inj hcolon]⟩
    rcases twoDigits?_getD_cases later with hdigits | ⟨hzero, hmissing⟩
    · exact .inr (.inl ⟨rfl, hdigits⟩)
    · exact .inr (.inr ⟨hzero, fun m => ⟨not_digitsAt_colon rfl, fun h => hmissing m h.2⟩⟩)
  · have hread : minutesAfter cs = ((twoDigits? cs).map (·.1)).getD 0 := by
      unfold minutesAfter
      split
      · exact absurd rfl hcolon
      · rfl
    rw [hread]
    rcases twoDigits?_getD_cases cs with hdigits | ⟨hzero, hmissing⟩
    · exact .inl hdigits
    · exact .inr (.inr ⟨hzero, fun m => ⟨hmissing m, fun h => hcolon h.1⟩⟩)

theorem minutesAt_unique {m : Nat} (h : MinutesAt cs place m) (h' : MinutesAt cs place n) :
    m = n := by
  rcases h with hdirect | ⟨hcolon, hlater⟩ | ⟨rfl, hmissing⟩
  · rcases h' with hdirect' | ⟨hcolon', -⟩ | ⟨-, hmissing'⟩
    · exact digitsAt_unique hdirect hdirect'
    · exact absurd hdirect (not_digitsAt_colon hcolon')
    · exact absurd hdirect (hmissing' m).1
  · rcases h' with hdirect' | ⟨-, hlater'⟩ | ⟨-, hmissing'⟩
    · exact absurd hdirect' (not_digitsAt_colon hcolon)
    · exact digitsAt_unique hlater hlater'
    · exact absurd ⟨hcolon, hlater⟩ (hmissing' m).2
  · rcases h' with hdirect' | hlater' | ⟨rfl, -⟩
    · exact absurd hdirect' (hmissing n).1
    · exact absurd hlater' (hmissing n).2
    · rfl

/-! ## One offset -/

theorem readsAt_unique {other : Offset} (h : ReadsAt cs place offset)
    (h' : ReadsAt cs place other) : offset = other := by
  have hsign : offset.negative = other.negative :=
    Bool.eq_iff_iff.2 (h.negative.trans h'.negative.symm)
  have hhours := digitsAt_unique h.hours h'.hours
  have hminutes := minutesAt_unique h.minutes h'.minutes
  cases offset
  cases other
  simp_all

theorem here?_eq_none_iff : here? cs = none ↔ ¬ StartsAt cs 0 := by
  cases cs with
  | nil =>
    refine iff_of_true rfl ?_
    rintro ⟨c, ⟨⟩, -⟩
  | cons c rest =>
    have hdigits : (∃ n, DigitsAt (c :: rest) 1 n) ↔ twoDigits? rest ≠ none := by
      rw [Ne, twoDigits?_eq_none_iff, not_forall_not]
      exact Iff.rfl
    have hstarts : StartsAt (c :: rest) 0 ↔
        (c = '+' ∨ c = '-' ∨ isBlank c = true) ∧ twoDigits? rest ≠ none := by
      rw [← hdigits]
      exact ⟨fun ⟨_, hc, h⟩ => Option.some.inj hc ▸ h, fun h => ⟨c, rfl, h⟩⟩
    rw [hstarts, here?, not_and_not_right]
    by_cases hsign : c = '+' ∨ c = '-' ∨ isBlank c = true
    · rw [if_pos hsign, Option.map_eq_none_iff]
      exact ⟨fun h _ => h, fun h => h hsign⟩
    · rw [if_neg hsign]
      exact iff_of_true rfl fun h => absurd h hsign

theorem readsAt_of_here? (h : here? cs = some offset) : ReadsAt cs 0 offset := by
  have hstarts : StartsAt cs 0 := by
    by_contra hnone
    rw [here?_eq_none_iff.2 hnone] at h
    cases h
  cases cs with
  | nil => cases h
  | cons c rest =>
    rw [here?, Option.ite_none_right_eq_some] at h
    obtain ⟨⟨hours, later⟩, hdigits, rfl⟩ := Option.map_eq_some_iff.1 h.2
    obtain ⟨hhours, rfl⟩ := twoDigits?_eq_some_iff.1 hdigits
    have hminutes : MinutesAt (c :: rest) 3 (minutesAfter (rest.drop 2)) := by
      rcases rest with _ | ⟨a, _ | ⟨b, later⟩⟩
      · cases hdigits
      · cases hdigits
      · rw [minutesAt_cons, minutesAt_cons, minutesAt_cons]
        exact minutesAt_minutesAfter later
    exact ⟨hstarts, by simp, hhours, hminutes⟩

theorem here?_eq_some_iff : here? cs = some offset ↔ ReadsAt cs 0 offset := by
  refine ⟨readsAt_of_here?, fun h => ?_⟩
  cases hfound : here? cs with
  | none => exact absurd h.starts (here?_eq_none_iff.1 hfound)
  | some other => rw [readsAt_unique (readsAt_of_here? hfound) h]

/-! ## The search -/

theorem leftmost?_eq_none_iff : leftmost? cs = none ↔ ∀ place, ¬ StartsAt cs place := by
  induction cs with
  | nil =>
    refine iff_of_true rfl ?_
    rintro place ⟨c, ⟨⟩, -⟩
  | cons c rest ih =>
    rw [leftmost?]
    cases hhere : here? (c :: rest) with
    | some offset =>
      refine iff_of_false (Option.some_ne_none offset) fun h => ?_
      exact h 0 (here?_eq_some_iff.1 hhere).starts
    | none =>
      dsimp only
      rw [ih]
      constructor
      · intro hrest place
        cases place with
        | zero => exact here?_eq_none_iff.1 hhere
        | succ place => exact (startsAt_cons c).not.2 (hrest place)
      · intro hnone place
        exact (startsAt_cons c).not.1 (hnone (place + 1))

theorem isLeftmost_of_leftmost? (h : leftmost? cs = some offset) : IsLeftmost cs offset := by
  induction cs with
  | nil => cases h
  | cons c rest ih =>
    rw [leftmost?] at h
    cases hhere : here? (c :: rest) with
    | some found =>
      rw [hhere] at h
      cases h
      exact ⟨0, here?_eq_some_iff.1 hhere, fun earlier h => absurd h (Nat.not_lt_zero earlier)⟩
    | none =>
      rw [hhere] at h
      obtain ⟨place, hreads, hfirst⟩ := ih h
      refine ⟨place + 1, (readsAt_cons c).2 hreads, fun earlier hearlier => ?_⟩
      cases earlier with
      | zero => exact here?_eq_none_iff.1 hhere
      | succ earlier =>
        exact (startsAt_cons c).not.2 (hfirst earlier (Nat.lt_of_succ_lt_succ hearlier))

theorem place_unique {place' : Nat} (h : StartsAt cs place)
    (hfirst : ∀ earlier < place, ¬ StartsAt cs earlier) (h' : StartsAt cs place')
    (hfirst' : ∀ earlier < place', ¬ StartsAt cs earlier) : place = place' :=
  Nat.le_antisymm (not_lt.1 fun hlt => hfirst place' hlt h')
    (not_lt.1 fun hlt => hfirst' place hlt h)

theorem isLeftmost_unique {other : Offset} (h : IsLeftmost cs offset) (h' : IsLeftmost cs other) :
    offset = other := by
  obtain ⟨place, hreads, hfirst⟩ := h
  obtain ⟨place', hreads', hfirst'⟩ := h'
  obtain rfl := place_unique hreads.starts hfirst hreads'.starts hfirst'
  exact readsAt_unique hreads hreads'

/-- The search finds the offset that no other stands left of, and nothing else. -/
theorem leftmost?_eq_some_iff : leftmost? cs = some offset ↔ IsLeftmost cs offset := by
  refine ⟨isLeftmost_of_leftmost?, fun h => ?_⟩
  cases hfound : leftmost? cs with
  | none =>
    obtain ⟨place, hreads, -⟩ := h
    exact absurd hreads.starts (leftmost?_eq_none_iff.1 hfound place)
  | some other => rw [isLeftmost_unique (isLeftmost_of_leftmost? hfound) h]

/-! ## The minutes of an offset -/

def sign (offset : Offset) : Double :=
  if offset.negative then (Double.ofNat 1).negate else Double.ofNat 1

theorem asDouble_eq (offset : Offset) :
    offset.asDouble = (offset.sign.mul ((Double.ofNat offset.hours).add
      ((Double.ofNat offset.minutes).div (Double.ofNat 60)))).mul (Double.ofNat 60) := by
  rw [asDouble, sign]
  split
  · rw [Double.negate_mul, Double.one_mul_add, Double.negate_mul]
  · rw [Double.one_mul_add]

end Offset

/-! ## Zones of texts -/

namespace Zone

open Offset

theorem ofText_of_isLeftmost {z : String} {offset : Offset} (h : IsLeftmost z.toList offset) :
    ofText z = shifted offset := by
  have hfound := leftmost?_eq_some_iff.2 h
  have huniversal : z ≠ "Z" := by
    rintro rfl
    cases hfound
  have hhost : z ≠ "local" := by
    rintro rfl
    cases hfound
  rw [ofText, if_neg huniversal, if_neg hhost, hfound]

theorem rounded?_of_none {z : String} (hz : z ≠ "Z")
    (h : ∀ place, ¬ StartsAt z.toList place) : (ofText z).rounded? = none := by
  rw [ofText, if_neg hz, leftmost?_eq_none_iff.2 h]
  split <;> rfl

theorem microseconds_of_none {z : String} (hhost : z ≠ "local")
    (h : ∀ place, ¬ StartsAt z.toList place) (hostMinutes : Rat) :
    (ofText z).microseconds hostMinutes = 0 := by
  rw [ofText, if_neg hhost, leftmost?_eq_none_iff.2 h]
  split <;> rfl

theorem dateValueText_congr {hostMinutes : Rat} {timezone other : Value}
    (h : (Literal.zoneOf timezone).microseconds hostMinutes =
      (Literal.zoneOf other).microseconds hostMinutes) (v : Value) :
    Literal.dateValueText hostMinutes timezone v = Literal.dateValueText hostMinutes other v := by
  cases v with
  | dateTime moment => simp only [Literal.dateValueText, Literal.dateTimeText, h]
  | date day => simp only [Literal.dateValueText, Literal.dateText, h]
  | _ => rfl

/-- A text other than "Z" stands for the offset that starts leftmost in it, whatever else it holds,
and for none where no place holds a sign and two digits. So dates are written alike for texts with
the same leftmost offset, and for a text without one as in universal time, except that "local" is
the zone of the host. -/
theorem leftmost_offset_decides {z : String} (hz : z ≠ "Z") :
    ((ofText z).rounded? = none ↔ ∀ place, ¬ StartsAt z.toList place) ∧
    (∀ place, StartsAt z.toList place → (∀ earlier < place, ¬ StartsAt z.toList earlier) →
      ∃ offset, ReadsAt z.toList place offset ∧
        (ofText z).rounded? = some ((offset.sign.mul ((Double.ofNat offset.hours).add
          ((Double.ofNat offset.minutes).div (Double.ofNat 60)))).mul (Double.ofNat 60))) ∧
    (∀ offset, IsLeftmost z.toList offset → ∀ other : String, IsLeftmost other.toList offset →
      ∀ hostMinutes v, Literal.dateValueText hostMinutes (.text other) v =
        Literal.dateValueText hostMinutes (.text z) v) ∧
    ((∀ place, ¬ StartsAt z.toList place) → z ≠ "local" →
      ∀ hostMinutes v, Literal.dateValueText hostMinutes (.text z) v =
        Literal.dateValueText hostMinutes (.text "Z") v) := by
  refine ⟨⟨fun hnone => ?_, rounded?_of_none hz⟩, fun place hstarts hfirst => ?_,
    fun offset hleftmost other hother hostMinutes v => ?_, fun hnone hhost hostMinutes v => ?_⟩
  · rw [← leftmost?_eq_none_iff]
    cases hfound : leftmost? z.toList with
    | none => rfl
    | some offset =>
      rw [ofText_of_isLeftmost (leftmost?_eq_some_iff.1 hfound)] at hnone
      cases hnone
  · cases hfound : leftmost? z.toList with
    | none => exact absurd hstarts (leftmost?_eq_none_iff.1 hfound place)
    | some offset =>
      have hleftmost := leftmost?_eq_some_iff.1 hfound
      have ⟨place', hreads, hfirst'⟩ := hleftmost
      obtain rfl := place_unique hstarts hfirst hreads.starts hfirst'
      refine ⟨offset, hreads, ?_⟩
      rw [ofText_of_isLeftmost hleftmost, rounded?, asDouble_eq]
  · apply dateValueText_congr
    rw [Literal.zoneOf, Literal.zoneOf, ofText_of_isLeftmost hother,
      ofText_of_isLeftmost hleftmost]
  · exact dateValueText_congr (microseconds_of_none hhost hnone hostMinutes) v

/-- A sign with one digit is passed over, digits of any script count, one digit behind a colon is
no minutes, and an offset further right is ignored. -/
theorem leftmost_offset_decides_nearMisses :
    "a+1-٣٤:5 +02" ≠ "Z" ∧ IsLeftmost "a+1-٣٤:5 +02".toList ⟨true, 34, 0⟩ ∧
      ∀ hostMinutes v, Literal.dateValueText hostMinutes (.text "-34") v =
        Literal.dateValueText hostMinutes (.text "a+1-٣٤:5 +02") v := by
  have hz : "a+1-٣٤:5 +02" ≠ "Z" := by decide
  have hleftmost : IsLeftmost "a+1-٣٤:5 +02".toList ⟨true, 34, 0⟩ :=
    leftmost?_eq_some_iff.1 (by decide)
  have hother : IsLeftmost "-34".toList ⟨true, 34, 0⟩ := leftmost?_eq_some_iff.1 (by decide)
  exact ⟨hz, hleftmost, (leftmost_offset_decides hz).2.2.1 _ hleftmost _ hother⟩

end Zone

end Calendar

end SqlFragments
