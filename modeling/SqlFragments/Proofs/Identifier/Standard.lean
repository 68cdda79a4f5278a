import Mathlib
import SqlFragments.Proofs.Identifier.Scan
import SqlFragments.Proofs.Text.Indent

/-!
# The standard way to write names

Names that are written in the way of the library read back as long as no double quote stands in
them, and only then are they what a dialect with double quotes writes. Both come from counting
double quotes: a dialect writes one more for each that stands in the name, and a reader needs it.
Still no two names are written alike, since the points tell where the segments end.
-/

namespace SqlFragments.Identifier

open Text

/-! ## Counting double quotes -/

theorem count_intercalate (segments : List (List Char)) :
    (['.'].intercalate segments).count '"' = (segments.map (List.count '"')).sum := by
  induction segments with
  | nil => rfl
  | cons segment rest ih =>
    cases rest with
    | nil => simp
    | cons next rest =>
      rw [List.intercalate_cons_cons, List.count_append, List.count_append, ih]
      simp

private theorem count_segments (name : List Char) :
    ((segments name).map (List.count '"')).sum = name.count '"' := by
  rw [← count_intercalate, segments, List.intercalate_splitOn]

private theorem count_flatMap_inner (segment : List Char) :
    (segment.flatMap Quoting.double.inner).count '"' = 2 * segment.count '"' := by
  induction segment with
  | nil => rfl
  | cons c segment ih =>
    rw [List.flatMap_cons, List.count_append, ih]
    by_cases hc : c = '"'
    · have htwice : (Quoting.double.inner '"').count '"' = 2 := rfl
      rw [hc, htwice, List.count_cons_self]
      omega
    · simp [Quoting.double, Quoting.inner, hc]

private theorem count_writeSegment (segment : List Char) :
    (writeSegment Quoting.double.quote segment).count '"' =
      (writeSegment standardQuote segment).count '"' + segment.count '"' := by
  unfold writeSegment
  split
  · next hstar =>
    rw [hstar]
    rfl
  · have hmarks : ∀ body : List Char, ('"' :: body ++ ['"']).count '"' = body.count '"' + 2 := by
      simp
    have hquote : Quoting.double.quote segment =
        '"' :: segment.flatMap Quoting.double.inner ++ ['"'] := rfl
    rw [hquote, standardQuote, hmarks, hmarks, count_flatMap_inner]
    omega

theorem count_write_double (name : String) :
    (Quoting.double.write name).toList.count '"' =
      (standard name).toList.count '"' + name.toList.count '"' := by
  rw [Quoting.write, standard, String.toList_ofList, String.toList_ofList, writeWith_eq,
    writeWith_eq, count_intercalate, count_intercalate, ← count_segments name.toList]
  induction segments name.toList with
  | nil => rfl
  | cons segment rest ih =>
    simp only [List.map_cons, List.sum_cons, ih, count_writeSegment]
    omega

/-! ## What can be read -/

section

variable {opening closing : Char} {cs : List Char}

private theorem eq_of_next?_character {c : Char} {rest : List Char}
    (h : (Quoting.doubled opening closing).next? cs = some (.character c rest)) :
    cs = (Quoting.doubled opening closing).inner c ++ rest := by
  cases cs with
  | nil => cases h
  | cons d behind =>
    rw [Quoting.next?, if_neg (by simp)] at h
    split at h
    · next htwin =>
      cases h
      obtain ⟨hmark, hnext⟩ := htwin
      obtain rfl : c = closing := by simpa [Quoting.isTwin] using hmark
      obtain ⟨rest, rfl⟩ := List.head?_eq_some_iff.1 hnext
      simp [Quoting.inner]
    · split at h
      · cases h
      · next hclosing =>
        split at h
        · cases h
        · cases h
          have hne : c ≠ closing := hclosing
          simp [Quoting.inner, hne]

private theorem eq_of_next?_closing {rest : List Char}
    (h : (Quoting.doubled opening closing).next? cs = some (.closing rest)) :
    cs = closing :: rest := by
  cases cs with
  | nil => cases h
  | cons d behind =>
    rw [Quoting.next?, if_neg (by simp)] at h
    split at h
    · cases h
    · split at h
      · next hclosing =>
        cases h
        rw [hclosing]
        rfl
      · split at h <;> cases h

private theorem eq_of_body? {body behind : List Char}
    (h : (Quoting.doubled opening closing).body? cs = some (body, behind)) :
    cs = body.flatMap (Quoting.doubled opening closing).inner ++ closing :: behind := by
  induction cs using Quoting.body?.induct (.doubled opening closing)
    generalizing body with
  | case1 cs c rest hfound ih =>
    rw [Quoting.body?_of_character hfound] at h
    obtain ⟨⟨body, behind'⟩, hbody, heq⟩ := Option.map_eq_some_iff.1 h
    cases heq
    rw [List.flatMap_cons, List.append_assoc, ← ih hbody]
    exact eq_of_next?_character hfound
  | case2 cs rest hfound =>
    rw [Quoting.body?_of_closing hfound] at h
    cases h
    exact eq_of_next?_closing hfound
  | case3 cs hfound =>
    rw [Quoting.body?_of_none hfound] at h
    cases h

theorem eq_of_segment? {segment behind : List Char}
    (h : (Quoting.doubled opening closing).segment? cs = some (segment, behind)) :
    (segment = ['*'] ∧ cs = '*' :: behind) ∨
      cs = (Quoting.doubled opening closing).quote segment ++ behind := by
  cases cs with
  | nil => cases h
  | cons c rest =>
    rw [Quoting.segment?] at h
    split at h
    · next hstar =>
      cases h
      exact .inl ⟨rfl, by rw [hstar]⟩
    · split at h
      · next hopening =>
        right
        rw [hopening, eq_of_body? h, Quoting.quote]
        simp [Quoting.closing]
      · cases h

end

private theorem count_segment?_le {cs segment behind : List Char}
    (h : Quoting.double.segment? cs = some (segment, behind)) :
    (writeSegment Quoting.double.quote segment).count '"' + behind.count '"' ≤ cs.count '"' := by
  unfold writeSegment
  obtain ⟨rfl, rfl⟩ | hquoted := eq_of_segment? h
  · simp
  · rw [hquoted]
    split
    · next hstar => simp [hstar]
    · rw [List.count_append]
      exact Nat.le_refl _

theorem count_scan?_le {cs : List Char} {found : List (List Char)}
    (h : Quoting.double.scan? cs = some found) :
    (found.map fun segment => (writeSegment Quoting.double.quote segment).count '"').sum ≤
      cs.count '"' := by
  induction cs using Quoting.scan?.induct Quoting.double generalizing found with
  | case1 cs segment hsegment =>
    rw [Quoting.scan?_of_last hsegment] at h
    cases h
    simpa using count_segment?_le hsegment
  | case2 cs segment rest hsegment ih =>
    rw [Quoting.scan?_of_point hsegment] at h
    obtain ⟨others, hothers, rfl⟩ := Option.map_eq_some_iff.1 h
    have hfirst := count_segment?_le hsegment
    have hrest := ih hothers
    rw [List.count_cons_of_ne (by decide)] at hfirst
    rw [List.map_cons, List.sum_cons]
    omega
  | case3 cs hlast hpoint =>
    rw [Quoting.scan?] at h
    split at h <;> simp_all

/-! ## Names in the way of the library -/

theorem write_double_of_not_mem {name : String} (h : '"' ∉ name.toList) :
    Quoting.double.write name = standard name := by
  rw [Quoting.write, standard, writeWith_eq, writeWith_eq]
  congr 2
  apply List.map_congr_left
  intro segment hsegment
  have hinner : segment.flatMap Quoting.double.inner = segment := by
    have hsame : ∀ c ∈ segment, Quoting.double.inner c = [c] := by
      intro c hc
      have hmem : c ∈ ['.'].intercalate (segments name.toList) :=
        mem_intercalate_of_mem hsegment hc
      rw [segments, List.intercalate_splitOn] at hmem
      have hne : c ≠ '"' := fun hmark => h (hmark ▸ hmem)
      simp [Quoting.double, Quoting.inner, hne]
    rw [List.flatMap_congr hsame, List.flatMap_singleton']
  unfold writeSegment
  split
  · rfl
  · show '"' :: segment.flatMap Quoting.double.inner ++ ['"'] = standardQuote segment
    rw [hinner]
    rfl

theorem write_double_eq_iff (name : String) :
    Quoting.double.write name = standard name ↔ '"' ∉ name.toList := by
  constructor
  · intro h
    have hcount := count_write_double name
    rw [h, Nat.left_eq_add, List.count_eq_zero] at hcount
    exact hcount
  · exact write_double_of_not_mem

/-- A reader needs the double quotes that a dialect writes. -/
theorem scan?_standard_iff (name : String) :
    Quoting.double.scan? (standard name).toList = some (segments name.toList) ↔
      '"' ∉ name.toList := by
  constructor
  · intro h
    have hread := count_scan?_le h
    have hcount := count_write_double name
    rw [Quoting.write, String.toList_ofList, writeWith_eq, count_intercalate, List.map_map,
      Function.comp_def] at hcount
    have hnone : name.toList.count '"' = 0 := by omega
    exact List.count_eq_zero.1 hnone
  · intro h
    rw [← write_double_of_not_mem h]
    exact Quoting.scan?_write ⟨by decide, by decide⟩ name

theorem splitOn_standard (name : String) :
    (standard name).toList.splitOn '.' =
      (segments name.toList).map (writeSegment standardQuote) := by
  rw [standard, String.toList_ofList, writeWith_eq]
  apply List.splitOn_intercalate
  · intro written hwritten
    obtain ⟨segment, hsegment, rfl⟩ := List.mem_map.1 hwritten
    have hpoint : '.' ∉ segment := not_mem_of_mem_splitOn name.toList segment hsegment
    unfold writeSegment
    split
    · exact hpoint
    · simp [standardQuote, hpoint]
  · rw [Ne, List.map_eq_nil_iff]
    exact List.splitOn_ne_nil '.' name.toList

private theorem writeSegment_standardQuote_injective :
    Function.Injective (writeSegment standardQuote) := by
  intro a b h
  unfold writeSegment standardQuote at h
  split at h <;> split at h <;> simp_all

theorem standard_injective : Function.Injective standard := by
  intro a b h
  apply segments_injective
  have hwritten := splitOn_standard a
  rw [h, splitOn_standard b] at hwritten
  exact (List.map_injective_iff.2 writeSegment_standardQuote_injective hwritten).symm

end SqlFragments.Identifier

namespace SqlFragments.IdentifierEscaper

open Identifier

/-- A name in the way of the library reads back as its segments exactly where no double quote stands
in it, and exactly there a dialect whose segments stand between double quotes, with double quotes
written twice, writes it in the same way, whatever quotes them. Even so no two names are written
alike. -/
theorem standard_reads_back_iff (env : Environment) :
    (∀ name : String, ∃ written : String,
      (standard.write env (.text name)).answer = .ok (.text written) ∧
      (Quoting.double.scan? written.toList = some (segments name.toList) ↔
        '"' ∉ name.toList)) ∧
    (∀ dialect, (dialectQuoting env dialect).answer = .ok .double →
      dialectQuoter.Follows env dialect .double) ∧
    (∀ quoter dialect label, quoter.Follows env dialect .double → ∀ name : String,
      ((standard.write env (.text name)).answer =
        ((ofQuoter quoter label dialect).write env (.text name)).answer ↔ '"' ∉ name.toList)) ∧
    ∀ a b : String,
      (standard.write env (.text a)).answer = (standard.write env (.text b)).answer → a = b := by
  refine ⟨fun name => ?_, fun dialect => follows_dialectQuoter,
    fun quoter dialect label h name => ?_, fun a b h => ?_⟩
  · exact ⟨Identifier.standard name, rfl, scan?_standard_iff name⟩
  · have hstandard : (standard.write env (.text name)).answer =
        .ok (.text (Identifier.standard name)) := rfl
    rw [hstandard, answer_ofQuoter h, Except.ok.injEq, Value.text.injEq, eq_comm]
    exact write_double_eq_iff name
  · have hwritten : Identifier.standard a = Identifier.standard b := by
      have h : (.ok (.text (Identifier.standard a)) : Except Failure Value) =
        .ok (.text (Identifier.standard b)) := h
      exact Value.text.inj (Except.ok.inj h)
    exact standard_injective hwritten

/-- A double quote between two segments, in the dialect that doubles it. -/
theorem standard_reads_back_iff_postgres :
    dialectQuoter.Follows {} (.text "postgres") .double ∧
    '"' ∉ "users.*".toList ∧
    (standard.write {} (.text "users.*")).answer =
      ((ofQuoter dialectQuoter 0 (.text "postgres")).write {} (.text "users.*")).answer ∧
    (standard.write {} (.text "a\".\"b")).answer ≠
      ((ofQuoter dialectQuoter 0 (.text "postgres")).write {} (.text "a\".\"b")).answer := by
  have h : (dialectQuoting {} (.text "postgres")).answer = .ok .double := by cbv
  have hfollows := (standard_reads_back_iff {}).2.1 (.text "postgres") h
  have hagree := (standard_reads_back_iff {}).2.2.1 dialectQuoter (.text "postgres") 0 hfollows
  refine ⟨hfollows, by decide, (hagree "users.*").2 (by decide), fun hsame => ?_⟩
  exact absurd ((hagree "a\".\"b").1 hsame) (by decide)

end SqlFragments.IdentifierEscaper
