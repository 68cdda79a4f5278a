import SqlFragments.Proofs.Identifier.Scan
import SqlFragments.Proofs.Text.Joined

/-!
# Written names are tight

Every segment of a name is a star or stands between two marks, so a written name has no blank at its
ends, whatever the name is. A star alone is not quoted in any way that the library has.
-/

namespace SqlFragments.Identifier

open Text

theorem tight_writeWith {quote : List Char → List Char} (hquote : ∀ segment, Tight (quote segment))
    (name : List Char) : Tight (writeWith quote name) := by
  have hsegments : segments name ≠ [] := List.splitOn_ne_nil '.' name
  rw [writeWith_eq]
  apply tight_intercalate
  · simpa using hsegments
  · intro part hpart
    obtain ⟨segment, _, rfl⟩ := List.mem_map.1 hpart
    unfold writeSegment
    split
    · next hstar =>
      rw [hstar]
      exact .of_forall (by simp) (by simp [isBlank])
    · exact hquote segment

theorem tight_standard (name : String) : Tight (standard name).toList := by
  rw [standard, String.toList_ofList]
  exact tight_writeWith (fun segment => .between segment rfl rfl) name.toList

theorem tight_quoted {quoting : Quoting} (h : quoting ∈ quotings) (name : String) :
    Tight (quoting.write name).toList := by
  have hmarks : ∀ quoting ∈ quotings,
      isBlank quoting.opening = false ∧ isBlank quoting.closing = false := by decide
  obtain ⟨hopening, hclosing⟩ := hmarks quoting h
  rw [Quoting.write, String.toList_ofList]
  exact tight_writeWith (fun segment => .between _ hopening hclosing) name.toList

end SqlFragments.Identifier

namespace SqlFragments.IdentifierEscaper

open Identifier Text

variable {env : Environment} {escaper : IdentifierEscaper}

/-- Whether what is written for names are tight texts. -/
def WritesTight (env : Environment) (escaper : IdentifierEscaper) : Prop :=
  ∀ (name : String) (written : Value), (escaper.write env (.text name)).answer = .ok written →
    ∃ s, written = .text s ∧ Tight s.toList

/-- Whether names are written in the way of the library or in a dialect. -/
def IsOwn (escaper : IdentifierEscaper) : Prop :=
  escaper = .standard ∨ ∃ label dialect, escaper = .ofDialect label dialect

/-- What is written in a dialect is the name in one of the quotings. Where nothing is quoted the
dialect is not asked for, and any quoting will do. -/
theorem answer_ofDialect_eq_ok {label : Label} {dialect written : Value} {name : String}
    (h : ((ofDialect label dialect).write env (.text name)).answer = .ok written) :
    ∃ quoting ∈ quotings, written = .text (quoting.write name) := by
  cases hdialect : (dialectQuoting env dialect).answer with
  | ok quoting =>
    rw [ofDialect, answer_ofQuoter (follows_dialectQuoter hdialect)] at h
    exact ⟨quoting, mem_quotings_of_dialectQuoting hdialect, (Except.ok.inj h).symm⟩
  | error cause =>
    refine ⟨.double, by decide, ?_⟩
    obtain ⟨_, htext, hwritten⟩ := Outcome.answer_bind_eq_ok.1 h
    cases hwritten
    obtain ⟨_, hname, htext⟩ := Outcome.answer_bind_eq_ok.1 htext
    cases hname
    obtain ⟨parts, hparts, htext⟩ := Outcome.answer_bind_eq_ok.1 htext
    cases htext
    have hstars : List.Forall₂
        (fun segment part => part = writeSegment Quoting.double.quote segment)
        (segments name.toList) parts := by
      refine (Outcome.answer_mapM_eq_ok.1 hparts).imp fun segment part hpart => ?_
      unfold writeSegment
      split at hpart
      · next hstar =>
        cases hpart
        rw [if_pos hstar]
      · obtain ⟨quoting, hquoting, _⟩ := Outcome.answer_bind_eq_ok.1 hpart
        rw [hdialect] at hquoting
        cases hquoting
    have hsame : (segments name.toList).map (writeSegment Quoting.double.quote) = parts :=
      List.forall₂_eq_eq_eq ▸ (List.forall₂_map_left_iff.2 (hstars.imp fun _ _ => Eq.symm))
    rw [Quoting.write, writeWith_eq, hsame]

theorem IsOwn.writesTight (h : escaper.IsOwn) : escaper.WritesTight env := by
  intro name written hwrite
  obtain rfl | ⟨label, dialect, rfl⟩ := h
  · cases hwrite
    exact ⟨_, rfl, tight_standard name⟩
  · obtain ⟨quoting, hmem, rfl⟩ := answer_ofDialect_eq_ok hwrite
    exact ⟨_, rfl, tight_quoted hmem name⟩

theorem IsOwn.write_star (h : escaper.IsOwn) :
    (escaper.write env (.text "*")).answer = .ok (.text "*") := by
  obtain rfl | ⟨label, dialect, rfl⟩ := h
  · have hstar : Identifier.standard "*" = "*" := by decide
    exact congrArg (fun s => Except.ok (Value.text s)) hstar
  · rfl

end SqlFragments.IdentifierEscaper
