import SqlFragments.Calendar.Zone
import SqlFragments.Text.Digit

/-!
# Offsets as texts

An offset is written as a sign and two digits of hours, and perhaps two digits of minutes. Read as a
time zone, such a text is the offset that it was written from.
-/

namespace SqlFragments

open Text

namespace Text

theorem padded_two (n : Fin 100) :
    padded 2 n = [(n.val / 10).digitChar, (n.val % 10).digitChar] := by
  decide +revert +kernel

theorem digitValue?_digitChar (d : Fin 10) : digitValue? d.val.digitChar = some d.val := by
  decide +revert +kernel

end Text

namespace Calendar

/-- An offset as a text. The minutes may be left out; where they are not, a colon may stand in
front of them. -/
structure OffsetText where
  negative : Bool
  hours : Fin 100
  minutes? : Option (Bool × Fin 100)

namespace OffsetText

def sign (z : OffsetText) : Char := if z.negative then '-' else '+'

def behind (z : OffsetText) : List Char :=
  match z.minutes? with
  | none => []
  | some (false, minutes) => padded 2 minutes
  | some (true, minutes) => ':' :: padded 2 minutes

def size (z : OffsetText) : List Char := padded 2 z.hours ++ z.behind

def text (z : OffsetText) : String := String.ofList (z.sign :: z.size)

def offset (z : OffsetText) : Offset where
  negative := z.negative
  hours := z.hours
  minutes := z.minutes?.elim 0 fun (_, minutes) => minutes

@[simp]
theorem toList_text (z : OffsetText) : z.text.toList = z.sign :: z.size :=
  String.toList_ofList

theorem sign_eq (z : OffsetText) : z.sign = '+' ∨ z.sign = '-' := by
  unfold sign
  split
  · exact .inr rfl
  · exact .inl rfl

theorem text_ne (z : OffsetText) {s : String} (hplus : s.toList.head? ≠ some '+')
    (hminus : s.toList.head? ≠ some '-') : z.text ≠ s := by
  rintro rfl
  rw [toList_text, List.head?_cons] at hplus hminus
  rcases z.sign_eq with h | h
  · exact hplus (congrArg some h)
  · exact hminus (congrArg some h)

private theorem mem_padded_two {n : Fin 100} {c : Char} (h : c ∈ padded 2 n) :
    c ∈ "0123456789".toList := by
  have hdigit : ∀ d : Fin 10, d.val.digitChar ∈ "0123456789".toList := by decide +kernel
  rw [padded_two, List.mem_cons, List.mem_singleton] at h
  rcases h with rfl | rfl
  · exact hdigit ⟨n.val / 10, by omega⟩
  · exact hdigit ⟨n.val % 10, by omega⟩

theorem mem_text {z : OffsetText} {c : Char} (h : c ∈ z.text.toList) :
    c ∈ "+-:".toList ++ "0123456789".toList := by
  have hmark : ∀ c, c = '+' ∨ c = '-' ∨ c = ':' → c ∈ "+-:".toList := by
    rintro c (rfl | rfl | rfl) <;> decide
  rw [List.mem_append]
  rw [toList_text, List.mem_cons, size, List.mem_append] at h
  rcases h with rfl | h | h
  · exact .inl (hmark _ (z.sign_eq.imp_right .inl))
  · exact .inr (mem_padded_two h)
  · obtain ⟨negative, hours, _ | ⟨_ | _, minutes⟩⟩ := z
    · cases h
    · exact .inr (mem_padded_two h)
    · rcases List.mem_cons.1 h with h | h
      · exact .inl (hmark _ (.inr (.inr h)))
      · exact .inr (mem_padded_two h)

private theorem twoDigits?_padded (n : Fin 100) (rest : List Char) :
    Offset.twoDigits? (padded 2 n ++ rest) = some (n.val, rest) := by
  have htens := digitValue?_digitChar ⟨n.val / 10, by omega⟩
  have hones := digitValue?_digitChar ⟨n.val % 10, by omega⟩
  rw [padded_two, List.cons_append, List.singleton_append, Offset.twoDigits?, htens, hones]
  exact congrArg (fun size => some (size, rest)) (Nat.div_add_mod n.val 10)

private theorem minutesAfter_padded (n : Fin 100) : Offset.minutesAfter (padded 2 n) = n.val := by
  have hdigits : Offset.twoDigits? (padded 2 n) = some (n.val, []) := by
    simpa using twoDigits?_padded n []
  have hcolon : (n.val / 10).digitChar ≠ ':' := by decide +revert +kernel
  unfold Offset.minutesAfter
  split
  · next later heq =>
    rw [padded_two] at heq
    exact absurd (List.cons.inj heq).1 hcolon
  · simp [hdigits]

private theorem minutesAfter_colon (n : Fin 100) :
    Offset.minutesAfter (':' :: padded 2 n) = n.val := by
  have hdigits : Offset.twoDigits? (padded 2 n) = some (n.val, []) := by
    simpa using twoDigits?_padded n []
  simp [Offset.minutesAfter, hdigits]

private theorem minutesAfter_behind (z : OffsetText) :
    Offset.minutesAfter z.behind = z.offset.minutes := by
  obtain ⟨negative, hours, _ | ⟨_ | _, minutes⟩⟩ := z
  · rfl
  · exact minutesAfter_padded minutes
  · exact minutesAfter_colon minutes

theorem leftmost?_text (z : OffsetText) : Offset.leftmost? z.text.toList = some z.offset := by
  have hsign : z.sign = '+' ∨ z.sign = '-' ∨ isBlank z.sign = true :=
    z.sign_eq.elim .inl fun h => .inr (.inl h)
  have hnegative : decide (z.sign = '-') = z.negative := by
    rw [sign]
    cases z.negative <;> rfl
  rw [toList_text, Offset.leftmost?, Offset.here?, if_pos hsign, size, twoDigits?_padded,
    Option.map_some, hnegative]
  simp only [minutesAfter_behind]
  rfl

theorem offset_range (z : OffsetText) : z.offset.hours < 100 ∧ z.offset.minutes < 100 := by
  obtain ⟨negative, hours, _ | ⟨_, minutes⟩⟩ := z
  · exact ⟨hours.isLt, Nat.succ_pos 99⟩
  · exact ⟨hours.isLt, minutes.isLt⟩

theorem zoneOf_text (z : OffsetText) : Zone.ofText z.text = .shifted z.offset := by
  have huniversal : z.text ≠ "Z" := z.text_ne (by decide) (by decide)
  have hhost : z.text ≠ "local" := z.text_ne (by decide) (by decide)
  rw [Zone.ofText, if_neg huniversal, if_neg hhost, z.leftmost?_text]

end OffsetText

end Calendar

end SqlFragments
