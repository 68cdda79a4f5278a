import Mathlib
import SqlFragments.Proofs.Render.Nodes
import SqlFragments.Proofs.Text.Reindent

/-!
# Suppressed text

Lines leave a member out, and clauses their wording, where no text comes of what stands there. A
text that is only blank would not be left out, and bindings without text would be. Neither comes
up in trees of the library: what binds shows, and so does what is not empty, where the names,
values and texts of the user show.
-/

namespace SqlFragments

open Outcome Text

variable {env : Environment} {context : Context}

/-! ## Values that show -/

/-- Whether there is something to see of a value: a text with a character that is not blank, or a
list with members. -/
def Value.Shows : Value → Prop
  | .text s => ∃ c ∈ s.toList, isBlank c = false
  | .list _ items => items ≠ []
  | _ => False

theorem Value.Shows.isTruthy {value : Value} (h : value.Shows) : value.isTruthy = true := by
  cases value with
  | text s =>
    obtain ⟨c, hc, -⟩ := h
    have hne : s ≠ "" := by
      rintro rfl
      cases hc
    simpa [Value.isTruthy] using hne
  | list label items => simpa [Value.isTruthy, Shows] using h
  | _ => exact h.elim

private theorem each_of_shows {value : Value} {members : List Value} (h : value.Shows)
    (hmembers : value.each? = some members) : members ≠ [] := by
  cases value with
  | text s =>
    cases hmembers
    obtain ⟨c, hc, -⟩ := h
    simpa [Value.characters] using List.ne_nil_of_mem hc
  | list label items =>
    cases hmembers
    exact h
  | _ => exact h.elim

theorem Value.shows_plus {a b c : Value} (h : a.plus b = .ok c) (hshows : a.Shows ∨ b.Shows) :
    c.Shows := by
  cases a with
  | text s =>
    cases b with
    | text t =>
      cases h
      rcases hshows with ⟨x, hx, hblank⟩ | ⟨x, hx, hblank⟩
      · exact ⟨x, by simp [hx], hblank⟩
      · exact ⟨x, by simp [hx], hblank⟩
    | _ => cases h
  | list label items =>
    rw [Value.plus] at h
    split at h
    · next more hmore =>
      cases h
      rcases hshows with hshows | hshows
      · exact fun hempty => hshows (List.append_eq_nil_iff.1 hempty).1
      · exact fun hempty => each_of_shows hshows hmore (List.append_eq_nil_iff.1 hempty).2
    · cases h
  -- Nothing else takes a text or a list up.
  | bytes form data =>
    have hb : b.Shows := hshows.resolve_left id
    cases b with
    | text | list => cases form <;> cases h
    | _ => exact hb.elim
  | _ =>
    have hb : b.Shows := hshows.resolve_left id
    cases b with
    | text | list => cases h
    | _ => exact hb.elim

/-! ## Lines, joined pieces and compositions -/

private theorem answer_extendLines (separator sql added : Value) :
    (extendLines separator sql added).answer = sql.plus added := by
  rw [extendLines, answer_bind, answer_ofExcept]
  cases sql.plus added with
  | error cause => rfl
  | ok sum => cases sql.takesUp <;> rfl

theorem shows_lengthen {separator sql line extended : Value} {isLast : Bool}
    (h : (lengthen separator isLast sql line).answer = .ok extended)
    (hshows : sql.Shows ∨ line.Shows) : extended.Shows := by
  unfold lengthen at h
  split at h
  · obtain ⟨between, tail, hbetween, htail⟩ : ∃ between tail,
        (if sql.isTruthy then sql else separator).plus line = .ok between ∧
          between.plus tail = .ok extended := by
      obtain ⟨between, hbetween, h⟩ := answer_bind_eq_ok.1 h
      rw [answer_extendLines] at hbetween
      dsimp only at h
      split at h
      · obtain ⟨tail, _, h⟩ := answer_bind_eq_ok.1 h
        exact ⟨between, tail, hbetween, (answer_extendLines _ _ _).symm.trans h⟩
      · exact ⟨between, _, hbetween, (answer_extendLines _ _ _).symm.trans h⟩
    refine Value.shows_plus htail (.inl (Value.shows_plus hbetween ?_))
    rcases hshows with hsql | hline
    · rw [if_pos hsql.isTruthy]
      exact .inl hsql
    · exact .inr hline
  · next hempty =>
    cases h
    exact hshows.resolve_right fun hline => hempty hline.isTruthy

private theorem Value.eq_text_of_text? {value : Value} {s : String} (h : value.text? = some s) :
    value = .text s := by
  cases value <;> cases h
  rfl

theorem shows_joinWith {separator written first : Value} {rest : List Value}
    (h : joinWith separator (first :: rest) = .ok written) (hfirst : first.Shows) :
    written.Shows := by
  unfold joinWith at h
  split at h
  · split at h
    · next texts htexts =>
      cases h
      rw [List.mapM_cons] at htexts
      obtain ⟨s, hs, htexts⟩ := Option.bind_eq_some_iff.1 htexts
      obtain ⟨others, -, htexts⟩ := Option.bind_eq_some_iff.1 htexts
      cases htexts
      obtain ⟨c, hc, hblank⟩ : (Value.text s).Shows := Value.eq_text_of_text? hs ▸ hfirst
      refine ⟨c, ?_, hblank⟩
      rw [String.toList_intercalate]
      exact mem_intercalate_of_mem List.mem_cons_self hc
    · cases h
  · cases h
  · cases h
  · cases h

theorem isTruthy_joinWith_nil {separator written : Value}
    (h : joinWith separator [] = .ok written) : written.isTruthy = false := by
  unfold joinWith at h
  split at h <;> cases h <;> rfl

private theorem mem_interleave {sql text : String} {results : List (Except Failure Result)}
    {parts : List Value} (h : interleave sql results parts = .ok text) {c : Char}
    (hc : c ∈ sql.toList ∨
      ∃ (q : Result) (s : String), .ok q ∈ results ∧ q.sql = .text s ∧ c ∈ s.toList) :
    c ∈ text.toList := by
  induction results generalizing sql parts with
  | nil =>
    cases h
    exact hc.resolve_right fun ⟨_, _, hq, _⟩ => by cases hq
  | cons result results ih =>
    cases result with
    | error cause => cases h
    | ok r =>
      cases parts with
      | nil => cases h
      | cons part parts =>
        simp only [interleave] at h
        split at h
        · next a b hsql =>
          apply ih h
          rcases hc with hc | ⟨q, s, hq, hs, hc⟩
          · exact .inl (by simp [hc])
          · rcases List.mem_cons.1 hq with hq | hq
            · cases hq
              rw [hsql] at hs
              cases hs
              exact .inl (by simp [hc])
            · exact .inr ⟨q, s, hq, hs, hc⟩
        · cases h

theorem mem_trim {cs : List Char} {c : Char} (h : c ∈ cs) (hc : isBlank c = false) :
    c ∈ trim cs := by
  have hdrop : ∀ ds : List Char, c ∈ ds → c ∈ ds.dropWhile isBlank := by
    intro ds hds
    rw [← List.takeWhile_append_dropWhile (p := isBlank) (l := ds), List.mem_append] at hds
    refine hds.resolve_left fun htaken => ?_
    rw [List.mem_takeWhile_imp htaken] at hc
    cases hc
  rw [trim, dropEndWhile, List.mem_reverse]
  exact hdrop _ (List.mem_reverse.2 (hdrop cs h))

theorem shows_strip {s : String} (h : (Value.text (strip s)).isTruthy = true) :
    (Value.text (strip s)).Shows := by
  have hne : trim s.toList ≠ [] := by
    rintro hnone
    simp [Value.isTruthy, strip, hnone] at h
  have hlast : isBlank ((trim s.toList).getLast hne) = false :=
    Bool.eq_false_iff.2 (List.rdropWhile_last_not isBlank (s.toList.dropWhile isBlank) hne)
  refine ⟨_, ?_, hlast⟩
  rw [toList_strip]
  exact List.getLast_mem hne

theorem shows_of_compose {strings : List Value} {results : List (Except Failure Result)}
    {result : Result} (h : compose strings results context = .ok result)
    (hshows : result.sql.isTruthy = true ∨ ∃ q : Result, .ok q ∈ results ∧ q.sql.Shows) :
    result.sql.Shows := by
  have htexts := texts_of_compose h
  obtain ⟨text, htext, rfl⟩ := compose_eq_ok.1 h
  unfold composedText at htext
  obtain ⟨parts, -, htext⟩ := bind_eq_ok.1 htext
  split at htext
  · next first rest =>
    obtain ⟨sql, hsql, htext⟩ := bind_eq_ok.1 htext
    cases htext
    rcases hshows with htruthy | ⟨q, hq, hshows⟩
    · exact shows_strip htruthy
    · obtain ⟨_, s, hok, hs⟩ := htexts _ hq
      cases hok
      rw [hs] at hshows
      obtain ⟨c, hc, hblank⟩ := hshows
      refine ⟨c, ?_, hblank⟩
      rw [toList_strip]
      exact mem_trim (mem_interleave hsql (.inr ⟨q, s, hq, hs, hc⟩)) hblank
  · cases htext

/-! ## Results that show -/

private theorem shows_mark : (Value.text "?").Shows :=
  ⟨'?', by decide, by decide⟩

def Value.ShowsText (value : Value) : Prop :=
  ∃ s, value = .text s ∧ value.Shows

/-- Whether there is something to see of a leaf where it has any text: of a value that is not bound
but written, of a name, and of a text that is taken over and not empty. -/
def Leaf.Shows (env : Environment) (context : Context) : Leaf → Prop
  | .bound value => context.withParameters = false → ∀ written,
      (context.escape.write env value context.timezone fun _ => json env value).answer =
        .ok written → written.ShowsText
  | .name value => ∀ written, (context.escapeId.write env value).answer = .ok written →
      written.ShowsText
  | .verbatim value => ∀ s, (verbatimText env value).answer = .ok s →
      s = "" ∨ (Value.text s).Shows
  | _ => True

/-- A result that binds something shows. Where all leaves show, it shows unless it is empty. -/
structure Result.IsExact (leavesShow : Prop) (result : Result) : Prop where
  bindings : result.bindings ≠ [] → result.sql.Shows
  text : leavesShow → result.sql.isTruthy = true → result.sql.Shows

section

variable {leavesShow : Prop}

private theorem isExact_of_text {sql : Value}
    (h : leavesShow → sql.isTruthy = true → sql.Shows) :
    Result.IsExact leavesShow { sql := sql } :=
  ⟨fun hbindings => absurd rfl hbindings, h⟩

private theorem isExact_bind {value : Value} {result : Result}
    (hleaf : leavesShow → (Leaf.bound value).Shows env context)
    (hok : (context.bind env value fun _ => json env value).answer = .ok result) :
    result.IsExact leavesShow := by
  unfold Context.bind at hok
  split at hok
  · cases hok
    exact ⟨fun _ => shows_mark, fun _ _ => shows_mark⟩
  · next hliteral =>
    obtain ⟨written, hwritten, hok⟩ := answer_bind_eq_ok.1 hok
    cases hok
    apply isExact_of_text
    intro hleaves _
    obtain ⟨_, _, hshows⟩ := hleaf hleaves (Bool.eq_false_iff.2 hliteral) written hwritten
    exact hshows

private theorem shows_mapM {write : Value → Outcome Value} {values written : List Value}
    (hvalues : ∀ value ∈ values, ∀ w, (write value).answer = .ok w → w.ShowsText)
    (hok : (values.mapM write).answer = .ok written) : ∀ w ∈ written, w.Shows := by
  intro w hw
  obtain ⟨value, hvalue, hwrite⟩ := exists_of_forall₂ (answer_mapM_eq_ok.1 hok).flip w hw
  obtain ⟨_, _, hshows⟩ := hvalues value hvalue w hwrite
  exact hshows

private theorem shows_joinWith_of_forall {separator written : Value} {pieces : List Value}
    (hpieces : ∀ piece ∈ pieces, piece.Shows) (h : joinWith separator pieces = .ok written)
    (htruthy : written.isTruthy = true) : written.Shows := by
  cases pieces with
  | nil =>
    rw [isTruthy_joinWith_nil h] at htruthy
    cases htruthy
  | cons first rest => exact shows_joinWith h (hpieces first List.mem_cons_self)

private theorem isExact_renderList {separator : Value} {values : List Value} {result : Result}
    (hleaves : leavesShow → ∀ value ∈ values, (Leaf.bound value).Shows env context)
    (hok : (renderList env context separator values).answer = .ok result) :
    result.IsExact leavesShow := by
  unfold renderList at hok
  split at hok
  · obtain ⟨sql, hsql, hok⟩ := answer_bind_eq_ok.1 hok
    cases hok
    have hmarks : ∀ piece ∈ values.map fun _ => Value.text "?", piece.Shows := by
      intro piece hpiece
      obtain ⟨_, _, rfl⟩ := List.mem_map.1 hpiece
      exact shows_mark
    refine ⟨fun hbindings => ?_, fun _ => shows_joinWith_of_forall hmarks hsql⟩
    obtain ⟨first, rest, rfl⟩ := List.exists_cons_of_ne_nil hbindings
    exact shows_joinWith hsql shows_mark
  · next hliteral =>
    obtain ⟨_, _, hok⟩ := answer_bind_eq_ok.1 hok
    obtain ⟨pieces, hpieces, hok⟩ := answer_bind_eq_ok.1 hok
    obtain ⟨sql, hsql, hok⟩ := answer_bind_eq_ok.1 hok
    cases hok
    apply isExact_of_text
    intro hshow
    rw [literalEach_eq_mapM] at hpieces
    have hvalues := fun value hvalue => hleaves hshow value hvalue (Bool.eq_false_iff.2 hliteral)
    exact shows_joinWith_of_forall (shows_mapM hvalues hpieces) hsql

private theorem isExact_linesBy {members : List Value}
    (hmembers : ∀ member ∈ members, ∀ q,
      (evaluate env context member).answer = .ok (.result q) → q.IsExact leavesShow)
    {separator sql : Value} {bindings : List Value} {result : Result}
    (hlines : Result.IsExact leavesShow { sql := sql, bindings := bindings })
    (hok : (linesBy id (evaluate env context) separator sql bindings members).answer =
      .ok result) :
    result.IsExact leavesShow := by
  induction members generalizing sql bindings with
  | nil =>
    cases hok
    exact hlines
  | cons member rest ih =>
    rw [List.forall_mem_cons] at hmembers
    obtain ⟨r, hr, hok⟩ := answer_bind_eq_ok.1 hok
    obtain ⟨q, hq, hok⟩ := answer_bind_eq_ok.1 hok
    obtain ⟨extended, hextended, hok⟩ := answer_bind_eq_ok.1 hok
    rw [Rendered.expect_eq_ok.1 hq] at hr
    have hexact : q.IsExact leavesShow := hmembers.1 q hr
    refine ih hmembers.2 ⟨fun hbindings => ?_, fun hshow htruthy => ?_⟩ hok
    · apply shows_lengthen hextended
      by_cases hempty : bindings = []
      · exact .inr (hexact.bindings (by simpa [hempty] using hbindings))
      · exact .inl (hlines.bindings hempty)
    · by_cases hline : q.sql.isTruthy = true
      · exact shows_lengthen hextended (.inr (hexact.text hshow hline))
      · have hsame : (lengthen separator rest.isEmpty sql q.sql).answer = .ok sql := by
          rw [lengthen, if_neg hline]
          rfl
        cases hsame.symm.trans hextended
        exact hlines.text hshow htruthy

private theorem isExact_compose {strings : List Value} {results : List (Except Failure Result)}
    (hresults : ∀ q, .ok q ∈ results → q.IsExact leavesShow) {result : Result}
    (h : compose strings results context = .ok result) : result.IsExact leavesShow := by
  refine ⟨fun hbindings => ?_, fun _ htruthy => shows_of_compose h (.inl htruthy)⟩
  have hbound : result.bindings = boundValues results := by
    obtain ⟨_, _, rfl⟩ := compose_eq_ok.1 h
    rfl
  obtain ⟨value, hvalue⟩ := List.exists_mem_of_ne_nil _ hbindings
  rw [hbound, boundValues, List.mem_flatMap] at hvalue
  obtain ⟨r, hr, hvalue⟩ := hvalue
  cases r with
  | error cause => cases hvalue
  | ok q =>
    exact shows_of_compose h (.inr ⟨q, hr, (hresults q hr).bindings (List.ne_nil_of_mem hvalue)⟩)

private theorem isExact_renderBy {f : Fragment} (hmade : f.assignable? = none)
    (hleaves : leavesShow → ∀ leaf ∈ f.leaves, leaf.Shows env context)
    (hparts : ∀ part ∈ f.parts, ∀ q,
      (evaluate env context part).answer = .ok (.result q) → q.IsExact leavesShow)
    {result : Result}
    (hok : (f.renderBy id (evaluate env context) env context).answer = .ok (.result result)) :
    result.IsExact leavesShow := by
  cases f with
  | raw value =>
    obtain ⟨s, hs, hok⟩ := answer_bind_eq_ok.1 hok
    cases hok
    apply isExact_of_text
    intro hshow htruthy
    refine (hleaves hshow _ List.mem_cons_self s hs).resolve_left ?_
    rintro rfl
    cases htruthy
  | identifier name =>
    obtain ⟨sql, hsql, hok⟩ := answer_bind_eq_ok.1 hok
    cases hok
    apply isExact_of_text
    intro hshow _
    obtain ⟨_, _, hshows⟩ := hleaves hshow _ List.mem_cons_self sql hsql
    exact hshows
  | parameter value =>
    obtain ⟨r, hr, hok⟩ := answer_bind_eq_ok.1 hok
    cases hok
    exact isExact_bind (fun hshow => hleaves hshow _ List.mem_cons_self) hr
  | parameterList values separator =>
    obtain ⟨r, hr, hok⟩ := answer_bind_eq_ok.1 hok
    cases hok
    refine isExact_renderList (fun hshow value hvalue => ?_) hr
    exact hleaves hshow _ (List.mem_map_of_mem hvalue)
  | columnList columns separator =>
    obtain ⟨_, _, hok⟩ := answer_bind_eq_ok.1 hok
    obtain ⟨pieces, hpieces, hok⟩ := answer_bind_eq_ok.1 hok
    obtain ⟨sql, hsql, hok⟩ := answer_bind_eq_ok.1 hok
    cases hok
    apply isExact_of_text
    intro hshow
    refine shows_joinWith_of_forall (shows_mapM (fun column hcolumn => ?_) hpieces) hsql
    exact hleaves hshow _ (List.mem_map_of_mem hcolumn)
  | lines members separator =>
    obtain ⟨r, hr, hok⟩ := answer_bind_eq_ok.1 hok
    cases hok
    exact isExact_linesBy hparts (isExact_of_text fun _ h => by cases h) hr
  | clause strings value =>
    obtain ⟨r, hr, hok⟩ := answer_bind_eq_ok.1 hok
    obtain ⟨inner, hinner, hok⟩ := answer_bind_eq_ok.1 hok
    obtain ⟨q, hq, hok⟩ := answer_bind_eq_ok.1 hok
    cases hok
    rw [Rendered.expect_eq_ok.1 hinner] at hr
    have hexact : inner.IsExact leavesShow := hparts value List.mem_cons_self inner hr
    have hsurround : surround context strings inner = .ok result := hq
    unfold surround at hsurround
    split at hsurround
    · refine isExact_compose (fun r hr => ?_) hsurround
      cases List.mem_singleton.1 hr
      exact hexact
    · next hempty =>
      cases hsurround
      exact ⟨fun hbindings => absurd (hexact.bindings hbindings).isTruthy hempty,
        fun _ h => by cases h⟩
  | template label form strings values =>
    obtain ⟨rs, hrs, hok⟩ := answer_bind_eq_ok.1 hok
    obtain ⟨q, hq, hok⟩ := answer_bind_eq_ok.1 hok
    cases hok
    refine isExact_compose (fun p hp => ?_) hq
    obtain ⟨r, hr, hp⟩ := List.mem_map.1 hp
    rw [valuesBy_eq_mapM, answer_mapM_eq_ok] at hrs
    obtain ⟨part, hpart, hr⟩ := exists_of_forall₂ hrs.flip r hr
    cases r with
    | other value => cases hp
    | result r =>
      cases hp
      exact hparts part hpart _ hr
  | _ => cases hmade

/-- Whatever a tree of the library comes to shows what it binds, and its text. -/
theorem isExact_of_evaluate (target : Value) (hlibrary : target.IsLibrary)
    (hleaves : leavesShow → ∀ leaf ∈ target.leaves, leaf.Shows env context) (result : Result)
    (hok : (evaluate env context target).answer = .ok (.result result)) :
    result.IsExact leavesShow := by
  induction target using Value.parts_induction generalizing result with
  | fragment f ih =>
    have hmade := hlibrary f (Value.mem_occurrences_self _)
    apply isExact_renderBy hmade hleaves _ ((evaluate_of_assignable hmade).1 hok).2
    intro part hpart
    apply ih part hpart (hlibrary.part part hpart)
    exact fun hshow leaf hleaf => hleaves hshow leaf (Fragment.leaves_part part hpart hleaf)
  | other value hne =>
    cases value with
    | fragment f => exact absurd rfl (hne f)
    | null =>
      cases hok
      exact isExact_of_text fun _ _ => ⟨'N', by decide, by decide⟩
    | text s =>
      rw [evaluate_text] at hok
      split at hok
      · obtain ⟨r, hr, hok⟩ := answer_bind_eq_ok.1 hok
        cases hok
        exact isExact_bind (fun hshow => hleaves hshow _ List.mem_cons_self) hr
      · cases hok
    | _ => cases hok

end

/-! ## What is left out -/

theorem answer_clause_of_not_shows {strings : List Value} {value : Value} {inner result : Result}
    (hinner : (evaluate env context value).answer = .ok (.result inner))
    (hexact : inner.IsExact True) (hshows : ¬ inner.sql.Shows)
    (hok : (evaluate env context (.fragment (.clause strings value))).answer =
      .ok (.result result)) : result = {} := by
  obtain ⟨-, hok⟩ := (evaluate_of_assignable rfl).1 hok
  obtain ⟨r, hr, hok⟩ := answer_bind_eq_ok.1 hok
  obtain ⟨q, hq, hok⟩ := answer_bind_eq_ok.1 hok
  obtain ⟨p, hp, hok⟩ := answer_bind_eq_ok.1 hok
  cases hok
  rw [Rendered.expect_eq_ok.1 hq, hinner] at hr
  cases hr
  have hsurround : surround context strings inner = .ok result := hp
  have hempty : ¬ inner.sql.isTruthy = true := fun h => hshows (hexact.text trivial h)
  have hbindings : inner.bindings = [] := by_contra fun h => hshows (hexact.bindings h)
  rw [surround, if_neg hempty, hbindings] at hsurround
  cases hsurround
  rfl

def Value.shown? : Value → Option String
  | .text s => if s.toList.all isBlank then none else some s
  | _ => none

theorem Value.shown?_of_shows {s : String} (h : (Value.text s).Shows) :
    (Value.text s).shown? = some s := by
  obtain ⟨c, hc, hblank⟩ := h
  have hall : s.toList.all isBlank = false := by
    rw [List.all_eq_false]
    exact ⟨c, hc, by simp [hblank]⟩
  simp [shown?, hall]

theorem Value.shown?_of_not_isTruthy {value : Value} (h : ¬ value.isTruthy = true) :
    value.shown? = none := by
  cases value with
  | text s =>
    have hempty : s = "" := by simpa [isTruthy] using h
    simp [shown?, hempty]
  | _ => rfl

def shownTexts (results : List Result) : List String :=
  results.filterMap fun result => result.sql.shown?

/-- What stands behind the last of the texts: a separator, which loses the spaces at its end where
no member is left out behind that text. -/
def closing (separator : String) (results : List Result) : String :=
  if results.getLast?.any fun result => result.sql.shown?.isSome then stripEndSpaces separator
  else separator

/-- The texts that can be seen, with a separator in front of them, between any two, and behind. -/
def framedTexts (separator : String) (results : List Result) : String :=
  if (shownTexts results).isEmpty then ""
  else separator ++ String.intercalate separator (shownTexts results) ++ closing separator results

private def grownTexts (separator before : String) (results : List Result) : String :=
  if (shownTexts results).isEmpty then before
  else (if before = "" then separator else before) ++
    String.intercalate separator (shownTexts results) ++ closing separator results

private theorem grownTexts_cons_none {result : Result} (h : result.sql.shown? = none)
    (separator before : String) (results : List Result) :
    grownTexts separator before (result :: results) = grownTexts separator before results := by
  have hshown : shownTexts (result :: results) = shownTexts results := by simp [shownTexts, h]
  cases results with
  | nil => simp [grownTexts, shownTexts, h]
  | cons next results =>
    have hclosing : closing separator (result :: next :: results) =
        closing separator (next :: results) := by simp [closing]
    rw [grownTexts, grownTexts, hshown, hclosing]

private theorem closing_of_shownTexts {results : List Result} (h : shownTexts results = [])
    (separator : String) : closing separator results = separator := by
  unfold closing
  cases hlast : results.getLast? with
  | none => rfl
  | some last =>
    have hnone := List.filterMap_eq_nil_iff.1 h last (List.mem_of_getLast? hlast)
    simp [hnone]

private theorem grownTexts_cons_some {result : Result} {s : String}
    (h : result.sql.shown? = some s) (hs : s ≠ "") (separator before : String)
    (results : List Result) :
    grownTexts separator before (result :: results) =
      grownTexts separator ((if before = "" then separator else before) ++ s ++
        if results.isEmpty then stripEndSpaces separator else separator) results := by
  have hshown : shownTexts (result :: results) = s :: shownTexts results := by
    simp [shownTexts, h]
  cases results with
  | nil => simp [grownTexts, shownTexts, h, closing]
  | cons next results =>
    have hclosing : closing separator (result :: next :: results) =
        closing separator (next :: results) := by simp [closing]
    rw [grownTexts, grownTexts, hshown, hclosing]
    cases hrest : shownTexts (next :: results) with
    | nil => simp [closing_of_shownTexts hrest]
    | cons t ts => simp [hs, String.append_assoc]

private theorem linesBy_eq_grown {members : List Value}
    (hmembers : ∀ member ∈ members, ∀ q,
      (evaluate env context member).answer = .ok (.result q) → q.IsExact True)
    {separator sql : String} {bindings : List Value} {result : Result}
    (hok : (linesBy id (evaluate env context) (.text separator) (.text sql) bindings
      members).answer = .ok result) :
    ∃ results : List Result,
      List.Forall₂ (fun member q => (evaluate env context member).answer = .ok (.result q))
        members results ∧
      result = {
        sql := .text (grownTexts separator sql results)
        bindings := bindings ++ results.flatMap Result.bindings } := by
  induction members generalizing sql bindings with
  | nil =>
    cases hok
    exact ⟨[], .nil, by simp [grownTexts, shownTexts]⟩
  | cons member rest ih =>
    rw [List.forall_mem_cons] at hmembers
    obtain ⟨r, hr, hok⟩ := answer_bind_eq_ok.1 hok
    obtain ⟨q, hq, hok⟩ := answer_bind_eq_ok.1 hok
    obtain ⟨extended, hextended, hok⟩ := answer_bind_eq_ok.1 hok
    rw [Rendered.expect_eq_ok.1 hq] at hr
    have hexact : q.IsExact True := hmembers.1 q hr
    have hextended : (lengthen (.text separator) rest.isEmpty (.text sql) q.sql).answer =
        .ok extended := hextended
    obtain ⟨⟨grown, rfl⟩, htext⟩ := text_of_lengthen hextended
    obtain ⟨results, hresults, rfl⟩ := ih hmembers.2 hok
    refine ⟨q :: results, .cons hr hresults, ?_⟩
    have hempty : results.isEmpty = rest.isEmpty := by cases hresults <;> rfl
    rw [List.flatMap_cons, List.append_assoc]
    congr 2
    by_cases htruthy : q.sql.isTruthy = true
    · obtain ⟨s, hs⟩ : ∃ s, q.sql = .text s := htext.resolve_right (by simp [htruthy])
      have hshows : (Value.text s).Shows := hs ▸ hexact.text trivial htruthy
      have hne : s ≠ "" := by
        rintro rfl
        cases hshows.isTruthy
      rw [hs, answer_lengthen, if_pos hshows.isTruthy] at hextended
      cases hextended
      rw [grownTexts_cons_some (by rw [hs, Value.shown?_of_shows hshows]) hne, hempty]
      simp [Value.isTruthy]
    · rw [lengthen, if_neg htruthy] at hextended
      cases hextended
      rw [grownTexts_cons_none (Value.shown?_of_not_isTruthy htruthy)]

theorem framed_of_evaluate {members : List Value} {separator : String} {result : Result}
    (hlibrary : (Value.fragment (.lines members (.text separator))).IsLibrary)
    (hleaves : ∀ leaf ∈ (Fragment.lines members (.text separator)).leaves,
      leaf.Shows env context)
    (hok : (evaluate env context (.fragment (.lines members (.text separator)))).answer =
      .ok (.result result)) :
    ∃ results : List Result,
      List.Forall₂ (fun member q => (evaluate env context member).answer = .ok (.result q))
        members results ∧
      result = {
        sql := .text (framedTexts separator results)
        bindings := results.flatMap Result.bindings } := by
  obtain ⟨-, hok⟩ := (evaluate_of_assignable rfl).1 hok
  obtain ⟨r, hr, hok⟩ := answer_bind_eq_ok.1 hok
  cases hok
  apply linesBy_eq_grown _ hr
  intro member hmember q hq
  refine isExact_of_evaluate member (hlibrary.part member hmember) ?_ q hq
  have hpart := Fragment.leaves_part (f := .lines members (.text separator)) member hmember
  exact fun _ leaf hleaf => hleaves leaf (hpart hleaf)

/-! ## Nodes that are texts -/

def Value.separator? : Value → Option Value
  | .fragment (.parameterList _ separator) => some separator
  | .fragment (.columnList _ separator) => some separator
  | .fragment (.lines _ separator) => some separator
  | _ => none

private theorem text_of_compose {strings : List Value} {results : List (Except Failure Result)}
    {result : Result} (h : compose strings results context = .ok result) :
    ∃ s, result.sql = .text s := by
  obtain ⟨text, -, rfl⟩ := compose_eq_ok.1 h
  exact ⟨text, rfl⟩

private theorem text_of_bind {value : Value} {result : Result}
    (hleaf : (Leaf.bound value).Shows env context)
    (hok : (context.bind env value fun _ => json env value).answer = .ok result) :
    ∃ s, result.sql = .text s := by
  unfold Context.bind at hok
  split at hok
  · cases hok
    exact ⟨"?", rfl⟩
  · next hliteral =>
    obtain ⟨written, hwritten, hok⟩ := answer_bind_eq_ok.1 hok
    cases hok
    obtain ⟨s, hs, -⟩ := hleaf (Bool.eq_false_iff.2 hliteral) written hwritten
    exact ⟨s, hs⟩

/-- What is joined by a text is a text, and so is everything else, where the leaves are. -/
theorem text_of_evaluate {target : Value} (hlibrary : target.IsLibrary)
    (hleaves : ∀ leaf ∈ target.leaves, leaf.Shows env context)
    (hseparator : ∀ separator, target.separator? = some separator → ∃ s, separator = .text s)
    {result : Result} (hok : (evaluate env context target).answer = .ok (.result result)) :
    ∃ s, result.sql = .text s := by
  cases target with
  | null =>
    cases hok
    exact ⟨"NULL", rfl⟩
  | text s =>
    rw [evaluate_text] at hok
    split at hok
    · obtain ⟨r, hr, hok⟩ := answer_bind_eq_ok.1 hok
      cases hok
      exact text_of_bind (hleaves _ List.mem_cons_self) hr
    · cases hok
  | fragment f =>
    have hmade := hlibrary f (Value.mem_occurrences_self _)
    obtain ⟨-, hrender⟩ := (evaluate_of_assignable hmade).1 hok
    cases f with
    | raw value =>
      obtain ⟨s, _, hrender⟩ := answer_bind_eq_ok.1 hrender
      cases hrender
      exact ⟨s, rfl⟩
    | identifier name =>
      obtain ⟨sql, hsql, hrender⟩ := answer_bind_eq_ok.1 hrender
      cases hrender
      obtain ⟨s, hs, -⟩ := hleaves _ List.mem_cons_self sql hsql
      exact ⟨s, hs⟩
    | parameter value =>
      obtain ⟨r, hr, hrender⟩ := answer_bind_eq_ok.1 hrender
      cases hrender
      exact text_of_bind (hleaves _ List.mem_cons_self) hr
    | parameterList values separator =>
      obtain ⟨sep, rfl⟩ := hseparator separator rfl
      obtain ⟨r, hr, hrender⟩ := answer_bind_eq_ok.1 hrender
      cases hrender
      have hr : (renderList env context (.text sep) values).answer = .ok result := hr
      unfold renderList at hr
      split at hr
      · obtain ⟨sql, hsql, hr⟩ := answer_bind_eq_ok.1 hr
        cases hr
        exact text_of_joinWith hsql
      · obtain ⟨_, _, hr⟩ := answer_bind_eq_ok.1 hr
        obtain ⟨_, _, hr⟩ := answer_bind_eq_ok.1 hr
        obtain ⟨sql, hsql, hr⟩ := answer_bind_eq_ok.1 hr
        cases hr
        exact text_of_joinWith hsql
    | columnList columns separator =>
      obtain ⟨sep, rfl⟩ := hseparator separator rfl
      obtain ⟨_, _, hrender⟩ := answer_bind_eq_ok.1 hrender
      obtain ⟨_, _, hrender⟩ := answer_bind_eq_ok.1 hrender
      obtain ⟨sql, hsql, hrender⟩ := answer_bind_eq_ok.1 hrender
      cases hrender
      exact text_of_joinWith hsql
    | lines members separator =>
      obtain ⟨sep, rfl⟩ := hseparator separator rfl
      obtain ⟨results, _, rfl⟩ := framed_of_evaluate hlibrary hleaves hok
      exact ⟨_, rfl⟩
    | clause strings value =>
      obtain ⟨_, _, hrender⟩ := answer_bind_eq_ok.1 hrender
      obtain ⟨inner, _, hrender⟩ := answer_bind_eq_ok.1 hrender
      obtain ⟨q, hq, hrender⟩ := answer_bind_eq_ok.1 hrender
      cases hrender
      have hq : surround context strings inner = .ok result := hq
      unfold surround at hq
      split at hq
      · exact text_of_compose hq
      · cases hq
        exact ⟨"", rfl⟩
    | template label form strings values =>
      obtain ⟨_, _, hrender⟩ := answer_bind_eq_ok.1 hrender
      obtain ⟨q, hq, hrender⟩ := answer_bind_eq_ok.1 hrender
      cases hrender
      exact text_of_compose hq
    | _ => cases hmade
  | _ => cases hok

/-- Where a tree of the library comes to a result, what has no text binds nothing. Where moreover
all leaves show, everything shows that is not empty: clauses leave their wording out around what
does not, and lines put separators around what does. -/
theorem Options.suppresses_exactly {options : Options} {target : Value} {rendered : Rendered}
    (hcontext : options.normalize = .ok context) (hlibrary : target.IsLibrary)
    (hrender : options.render env target = .ok rendered) :
    (∀ node ∈ target.occurrences, ∃ result, options.render env node = .ok (.result result) ∧
      (result.sql.isTruthy = false → result.bindings = [])) ∧
    ((∀ leaf ∈ target.leaves, leaf.Shows env context) →
      (∀ node ∈ target.occurrences, ∀ result, options.render env node = .ok (.result result) →
        (result.sql.isTruthy = true → result.sql.Shows) ∧
          ((∀ separator, node.separator? = some separator → ∃ s, separator = .text s) →
            ∃ s, result.sql = .text s)) ∧
      (∀ strings value, .fragment (.clause strings value) ∈ target.occurrences → ∀ inner,
        options.render env value = .ok (.result inner) → ¬ inner.sql.Shows →
          options.render env (.fragment (.clause strings value)) = .ok (.result {})) ∧
      ∀ members separator, .fragment (.lines members (.text separator)) ∈ target.occurrences →
        ∃ results : List Result,
          List.Forall₂ (fun member q => options.render env member = .ok (.result q)) members
            results ∧
          options.render env (.fragment (.lines members (.text separator))) = .ok (.result {
            sql := .text (framedTexts separator results)
            bindings := results.flatMap Result.bindings })) := by
  simp only [render_of_normalize hcontext] at hrender ⊢
  have hnodes := evaluate_node hlibrary hrender
  have hexact : ∀ leavesShow : Prop,
      (leavesShow → ∀ leaf ∈ target.leaves, leaf.Shows env context) →
      ∀ node ∈ target.occurrences, ∀ result,
        (SqlFragments.evaluate env context node).answer = .ok (.result result) →
          result.IsExact leavesShow := by
    intro leavesShow hshow node hnode result hresult
    refine isExact_of_evaluate node (hlibrary.node hnode) ?_ result hresult
    exact fun h leaf hleaf => hshow h leaf (Value.leaves_subset hnode hleaf)
  refine ⟨fun node hnode => ?_, fun hshow => ⟨fun node hnode result hresult => ?_,
    fun strings value hclause inner hinner hblank => ?_, fun members separator hlines => ?_⟩⟩
  · obtain ⟨result, hresult⟩ := hnodes node hnode
    have hbindings := (hexact False False.elim node hnode result hresult).bindings
    refine ⟨result, hresult, fun hempty => ?_⟩
    by_contra hbound
    rw [(hbindings hbound).isTruthy] at hempty
    cases hempty
  · have hleaves : ∀ leaf ∈ node.leaves, leaf.Shows env context :=
      fun leaf hleaf => hshow leaf (Value.leaves_subset hnode hleaf)
    exact ⟨(hexact True (fun _ => hshow) node hnode result hresult).text trivial,
      fun hseparator => text_of_evaluate (hlibrary.node hnode) hleaves hseparator hresult⟩
  · obtain ⟨result, hresult⟩ := hnodes _ hclause
    have hvalue : value ∈ (Value.fragment (.clause strings value)).occurrences :=
      Value.mem_occurrences_of_part List.mem_cons_self
    have hinnerExact := hexact True (fun _ => hshow) value
      (Value.occurrences_subset hclause hvalue) inner hinner
    rw [hresult, answer_clause_of_not_shows hinner hinnerExact hblank hresult]
  · obtain ⟨result, hresult⟩ := hnodes _ hlines
    obtain ⟨results, hresults, rfl⟩ := framed_of_evaluate (hlibrary.node hlines)
      (fun leaf hleaf => hshow leaf (Value.leaves_subset hlines hleaf)) hresult
    exact ⟨results, hresults, hresult⟩

/-- A statement with literals. Of the lines behind its name only one shows: nothing comes of an
empty text, and nothing of a clause around nothing. -/
theorem Options.suppresses_exactly_statement :
    let options : Options := .mapping 0 [(.text "with_parameters", .value (.bool false))]
    let context : Context := { withParameters := false }
    let clause : Fragment := .clause [.text "WHERE ", .text ""] (.fragment (.raw .null))
    let limit : Fragment := .template 1 .statement [.text "LIMIT ", .text ""] [.int 5]
    let target : Value := .fragment (.template 0 .statement
      [.text "SELECT * FROM ", .text "", .text ""] [.fragment (.identifier "t"),
        .fragment (.lines [.fragment (.raw (.text "")), .fragment clause, .fragment limit]
          (.text "\n  "))])
    let rendered : Rendered := .result { sql := .text "SELECT * FROM \"t\"\n  LIMIT 5" }
    (options.normalize = .ok context ∧ target.IsLibrary ∧
      options.render {} target = .ok rendered) ∧
    (∀ leaf ∈ target.leaves, leaf.Shows {} context) ∧
    options.render {} (.fragment clause) = .ok (.result {}) ∧
    ∀ node ∈ target.occurrences, ∃ result, options.render {} node = .ok (.result result) ∧
      (result.sql.isTruthy = false → result.bindings = []) := by
  intro options context clause limit target rendered
  have hcontext : options.normalize = .ok context := by cbv
  have hlibrary : target.IsLibrary := by decide
  have hrender : options.render {} target = .ok rendered := by cbv
  have hleaves : ∀ leaf ∈ target.leaves, leaf.Shows {} context := by
    have hname : (context.escapeId.write {} (.text "t")).answer = .ok (.text "\"t\"") := by cbv
    have hvalue : (context.escape.write {} (.int 5) context.timezone fun _ =>
        json {} (.int 5)).answer = .ok (.text "5") := by cbv
    have hleaves : target.leaves =
        [.name (.text "t"), .verbatim (.text ""), .verbatim .null, .bound (.int 5)] := rfl
    simp only [hleaves, List.forall_mem_cons]
    refine ⟨fun written hw => ?_, fun s hs => ?_, fun s hs => ?_, fun _ written hw => ?_, ?_⟩
    · cases hname.symm.trans hw
      exact ⟨_, rfl, 't', by decide, by decide⟩
    · cases hs
      exact .inl rfl
    · cases hs
      exact .inl rfl
    · cases hvalue.symm.trans hw
      exact ⟨_, rfl, '5', by decide, by decide⟩
    · exact fun _ hleaf => by cases hleaf
  have h := suppresses_exactly hcontext hlibrary hrender
  have hinner : options.render {} (.fragment (.raw .null)) = .ok (.result {}) := by cbv
  refine ⟨⟨hcontext, hlibrary, hrender⟩, hleaves, ?_, h.1⟩
  have hclause : .fragment clause ∈ target.occurrences := by
    simp [target, Value.occurrences, Fragment.contents, Value.promotedOccurrences,
      Value.occurrencesEach, Value.isPlain]
  refine (h.2 hleaves).2.1 _ _ hclause {} hinner ?_
  rintro ⟨c, hc, _⟩
  cases hc

end SqlFragments
