import SqlFragments.Proofs.Render.Chain
import SqlFragments.Proofs.Render.Inlines
import SqlFragments.Proofs.Render.Transcript

/-!
# Placeholders for literals

Where a tree whose wording is made of texts can be rendered with literals, it can be rendered with
placeholders, whatever the literals are. A literal may be no text at all, or an empty one: then
wording comes back that was left out.
-/

namespace SqlFragments

open Outcome Text

variable {env : Environment} {context : Context}

/-! ## Wording made of texts -/

mutual

/-- Whether all separators and literal parts are texts, and there is one literal part more than
values. -/
def Fragment.isWorded : Fragment → Bool
  | .parameterList _ separator => separator.text?.isSome
  | .columnList _ separator => separator.text?.isSome
  | .lines members separator => separator.text?.isSome && Value.areWorded members
  | .clause strings value =>
    strings.all (·.text?.isSome) && strings.length == 2 && Value.isWorded value
  | .template _ _ strings values =>
    strings.all (·.text?.isSome) && strings.length == values.length + 1 && Value.areWorded values
  | _ => true
termination_by structural f => f

def Value.isWorded : Value → Bool
  | .fragment f => Fragment.isWorded f
  | _ => true
termination_by structural v => v

def Value.areWorded : List Value → Bool
  | [] => true
  | value :: rest => Value.isWorded value && Value.areWorded rest
termination_by structural vs => vs

end

private theorem isWorded_part {f : Fragment} (h : f.isWorded = true) :
    ∀ value ∈ f.parts, value.isWorded = true := by
  have heach : ∀ values : List Value, Value.areWorded values = true →
      ∀ value ∈ values, value.isWorded = true :=
    fun _ hvalues => forall_of_cons (fun _ _ => rfl) hvalues
  cases f with
  | lines members separator =>
    rw [Fragment.isWorded, Bool.and_eq_true] at h
    exact heach members h.2
  | clause strings value =>
    rw [Fragment.isWorded, Bool.and_eq_true] at h
    intro part hpart
    rw [List.mem_singleton.1 hpart]
    exact h.2
  | template label form strings values =>
    rw [Fragment.isWorded, Bool.and_eq_true] at h
    intro part hpart
    obtain ⟨value, hvalue, rfl⟩ := List.mem_map.1 hpart
    unfold Value.promoted
    split
    · rfl
    · exact heach values h.2 value hvalue
  | _ => exact fun _ hpart => by cases hpart

theorem next_of_isCounted {f : Fragment} (h : f.isCounted = true) : f.next? = none := by
  cases f with
  | deferred | endless => cases h
  | _ => rfl

theorem isCounted_part {f : Fragment} (h : f.isCounted = true) :
    ∀ value ∈ f.parts, value.isCounted = true := by
  have heach : ∀ values : List Value, Value.areCounted values = true →
      ∀ value ∈ values, value.isCounted = true :=
    fun _ hvalues => forall_of_cons (fun _ _ => rfl) hvalues
  cases f with
  | lines members separator => exact heach members h
  | clause strings value =>
    intro part hpart
    rw [List.mem_singleton.1 hpart]
    exact h
  | template label form strings values =>
    intro part hpart
    obtain ⟨value, hvalue, rfl⟩ := List.mem_map.1 hpart
    have hcounted := heach values h value hvalue
    unfold Value.promoted
    split
    · next hplain => exact isPure_of_isPlain hplain hcounted
    · exact hcounted
  | _ => exact fun _ hpart => by cases hpart

/-! ## Composing texts -/

private theorem texts_of_interleave {sql text : String} {results : List (Except Failure Result)}
    {parts : List Value} (h : interleave sql results parts = .ok text) :
    ∀ result ∈ results, ∃ (r : Result) (s : String), result = .ok r ∧ r.sql = .text s := by
  induction results generalizing sql parts with
  | nil => exact fun _ hresult => by cases hresult
  | cons result results ih =>
    cases result with
    | error cause => cases h
    | ok r =>
      cases parts with
      | nil => cases h
      | cons part parts =>
        simp only [interleave] at h
        split at h
        · next a b hsql =>
          rw [List.forall_mem_cons]
          exact ⟨⟨r, a, rfl, hsql⟩, ih h⟩
        · cases h

theorem texts_of_compose {strings : List Value} {results : List (Except Failure Result)}
    {result : Result} (h : compose strings results context = .ok result) :
    ∀ r ∈ results, ∃ (q : Result) (s : String), r = .ok q ∧ q.sql = .text s := by
  obtain ⟨text, htext, -⟩ := compose_eq_ok.1 h
  unfold composedText at htext
  obtain ⟨parts, -, htext⟩ := bind_eq_ok.1 htext
  split at htext
  · obtain ⟨sql, hsql, -⟩ := bind_eq_ok.1 htext
    exact texts_of_interleave hsql
  · cases htext

private theorem interleave_of_texts (sql : String) {results : List (Except Failure Result)}
    (hresults : ∀ result ∈ results, ∃ (r : Result) (s : String), result = .ok r ∧ r.sql = .text s)
    {parts : List String} (hlength : results.length ≤ parts.length) :
    ∃ text, interleave sql results (parts.map .text) = .ok text := by
  induction results generalizing sql parts with
  | nil => exact ⟨sql, rfl⟩
  | cons result results ih =>
    cases parts with
    | nil => exact absurd hlength (Nat.not_succ_le_zero _)
    | cons part parts =>
      rw [List.forall_mem_cons] at hresults
      obtain ⟨⟨r, s, rfl, hsql⟩, hrest⟩ := hresults
      simp only [List.map_cons, interleave, hsql]
      exact ih _ hrest (Nat.le_of_succ_le_succ hlength)

theorem compose_of_texts {texts : List String} {results : List (Except Failure Result)}
    (hresults : ∀ r ∈ results, ∃ (q : Result) (s : String), r = .ok q ∧ q.sql = .text s)
    (hlength : texts.length = results.length + 1) :
    ∃ (result : Result) (s : String),
      compose (texts.map .text) results context = .ok result ∧ result.sql = .text s := by
  obtain ⟨first, rest, rfl⟩ := List.exists_cons_of_length_eq_add_one hlength
  have hcount : (dedent ((first :: rest).map String.toList)).length = results.length + 1 := by
    rw [length_dedent, List.length_map, hlength]
  obtain ⟨head, tail, htail⟩ := List.exists_cons_of_length_eq_add_one hcount
  have hparts : dedentParts ((first :: rest).map .text) =
      .ok (.text (String.ofList head) :: (tail.map String.ofList).map .text) := by
    rw [dedentParts_text, htail, List.map_cons, List.map_map]
    rfl
  rw [htail, List.length_cons] at hcount
  have henough : results.length ≤ (tail.map String.ofList).length := by
    rw [List.length_map]
    omega
  obtain ⟨sql, hsql⟩ := interleave_of_texts (String.ofList head) hresults henough
  have htext : composedText ((first :: rest).map .text) results = .ok (strip sql) := by
    unfold composedText
    rw [hparts]
    exact congrArg (Except.map strip) hsql
  refine ⟨{ sql := .text (strip sql), bindings := boundValues results, method := context.tag },
    strip sql, ?_, rfl⟩
  rw [compose_eq_map, htext]
  rfl

/-! ## Renders with placeholders -/

def Context.withMarks (context : Context) : Context :=
  { context with withParameters := true }

/-- Of a render with literals and one with placeholders, the text of the second is a text, or what
the first has. -/
def Rendered.Marked : Rendered → Rendered → Prop
  | .result i, .result p => p.sql = i.sql ∨ ∃ s, p.sql = .text s
  | _, _ => False

def Value.Marks (env : Environment) (context : Context) (value : Value) : Prop :=
  ∀ rendered, (evaluate env context value).answer = .ok rendered →
    ∃ marked, (evaluate env context.withMarks value).answer = .ok marked ∧ rendered.Marked marked

private theorem length_valuesBy {values : List Value} {rs : List Rendered}
    (hok : (valuesBy (evaluate env context) values).answer = .ok rs) :
    rs.length = values.length := by
  rw [valuesBy_eq_mapM, answer_mapM_eq_ok] at hok
  simpa using hok.length_eq.symm

private theorem marks_valuesBy {values : List Value}
    (h : ∀ value ∈ values.map Value.promoted, value.Marks env context) {rs : List Rendered}
    (hok : (valuesBy (evaluate env context) values).answer = .ok rs) :
    ∃ ss, (valuesBy (evaluate env context.withMarks) values).answer = .ok ss ∧
      List.Forall₂ Rendered.Marked rs ss := by
  induction values generalizing rs with
  | nil =>
    cases hok
    exact ⟨[], rfl, .nil⟩
  | cons value rest ih =>
    rw [List.map_cons, List.forall_mem_cons] at h
    obtain ⟨r, hr, hok⟩ := answer_bind_eq_ok.1 hok
    obtain ⟨others, hothers, hok⟩ := answer_bind_eq_ok.1 hok
    cases hok
    obtain ⟨s, hs, hmarked⟩ := h.1 r hr
    obtain ⟨ss, hss, hrest⟩ := ih h.2 hothers
    exact ⟨s :: ss, answer_bind_eq_ok.2 ⟨s, hs, answer_bind_eq_ok.2 ⟨ss, hss, rfl⟩⟩,
      .cons hmarked hrest⟩

theorem text_of_lengthen {sep sql : String} {isLast : Bool} {line extended : Value}
    (h : (lengthen (.text sep) isLast (.text sql) line).answer = .ok extended) :
    (∃ s, extended = .text s) ∧ ((∃ s, line = .text s) ∨ line.isTruthy = false) := by
  cases line with
  | text s =>
    rw [answer_lengthen] at h
    cases h
    exact ⟨⟨_, rfl⟩, .inl ⟨s, rfl⟩⟩
  | _ =>
    unfold lengthen at h
    split at h
    · have hopened : ∃ s, (if (Value.text sql).isTruthy then Value.text sql else .text sep) =
          .text s := by
        split
        · exact ⟨sql, rfl⟩
        · exact ⟨sep, rfl⟩
      obtain ⟨opened, hopened⟩ := hopened
      obtain ⟨_, hextend, -⟩ := answer_bind_eq_ok.1 h
      rw [hopened] at hextend
      obtain ⟨_, hsum, -⟩ := answer_bind_eq_ok.1 hextend
      cases hsum
    · next hline =>
      cases h
      exact ⟨⟨sql, rfl⟩, .inr (Bool.eq_false_iff.2 hline)⟩

private theorem lengthen_of_text (sep sql : String) (isLast : Bool) {line : Value}
    (h : (∃ s, line = .text s) ∨ line.isTruthy = false) :
    ∃ s, (lengthen (.text sep) isLast (.text sql) line).answer = .ok (.text s) := by
  rcases h with ⟨s, rfl⟩ | hline
  · exact ⟨_, answer_lengthen sep isLast sql s⟩
  · refine ⟨sql, ?_⟩
    rw [lengthen, if_neg (by rw [hline]; exact Bool.false_ne_true)]
    rfl

theorem marked_result {i : Result} {r : Rendered} (h : (Rendered.result i).Marked r) :
    ∃ p : Result, r = .result p ∧ (p.sql = i.sql ∨ ∃ s, p.sql = .text s) := by
  cases r with
  | result p => exact ⟨p, rfl, h⟩
  | other value => cases h

private theorem marks_linesBy {members : List Value}
    (h : ∀ member ∈ members, member.Marks env context) (sep : String) {sql sql' : String}
    {bindings bindings' : List Value} {result : Result}
    (hok : (linesBy id (evaluate env context) (.text sep) (.text sql) bindings members).answer =
      .ok result) :
    ∃ (marked : Result) (s : String), (linesBy id (evaluate env context.withMarks) (.text sep)
      (.text sql') bindings' members).answer = .ok marked ∧ marked.sql = .text s := by
  induction members generalizing sql sql' bindings bindings' with
  | nil => exact ⟨{ sql := .text sql', bindings := bindings' }, sql', rfl, rfl⟩
  | cons member rest ih =>
    rw [List.forall_mem_cons] at h
    obtain ⟨r, hr, hok⟩ := answer_bind_eq_ok.1 hok
    obtain ⟨i, hi, hok⟩ := answer_bind_eq_ok.1 hok
    obtain ⟨extended, hextended, hok⟩ := answer_bind_eq_ok.1 hok
    obtain ⟨marked, hmarked, hrelated⟩ := h.1 r hr
    rw [Rendered.expect_eq_ok.1 hi] at hrelated
    obtain ⟨p, rfl, hp⟩ := marked_result hrelated
    obtain ⟨⟨t, rfl⟩, hline⟩ := text_of_lengthen hextended
    have hline' : (∃ s, p.sql = .text s) ∨ p.sql.isTruthy = false := by
      rcases hp with hsame | htext
      · rwa [hsame]
      · exact .inl htext
    obtain ⟨s, hs⟩ := lengthen_of_text sep sql' rest.isEmpty hline'
    obtain ⟨final, text, hfinal, htext⟩ := ih h.2 hok
    refine ⟨final, text, ?_, htext⟩
    exact answer_bind_eq_ok.2 ⟨.result p, hmarked, answer_bind_eq_ok.2
      ⟨p, rfl, answer_bind_eq_ok.2 ⟨.text s, hs, hfinal⟩⟩⟩

private theorem marks_surround {texts : List String} (hlength : texts.length = 2)
    {inner marked result : Result} (hmarked : marked.sql = inner.sql ∨ ∃ s, marked.sql = .text s)
    (hok : surround context (texts.map .text) inner = .ok result) :
    ∃ (result' : Result) (s : String),
      surround context.withMarks (texts.map .text) marked = .ok result' ∧
        result'.sql = .text s := by
  have htruthy : marked.sql.isTruthy = true → ∃ s, marked.sql = .text s := by
    intro hmarkedTruthy
    rcases hmarked with hsame | htext
    · rw [surround, if_pos (hsame ▸ hmarkedTruthy)] at hok
      obtain ⟨q, s, hq, hsql⟩ := texts_of_compose hok _ List.mem_cons_self
      cases hq
      exact ⟨s, hsame.trans hsql⟩
    · exact htext
  unfold surround
  split
  · next hsome =>
    obtain ⟨s, hs⟩ := htruthy hsome
    apply compose_of_texts _ hlength
    intro r hr
    exact ⟨marked, s, List.mem_singleton.1 hr, hs⟩
  · exact ⟨{ bindings := marked.bindings }, "", rfl, rfl⟩

private theorem texts_of_marked {rs ss : List Rendered} (h : List.Forall₂ Rendered.Marked rs ss)
    (htexts : ∀ r ∈ rs.map Rendered.toResult, ∃ (q : Result) (s : String),
      r = .ok q ∧ q.sql = .text s) :
    ∀ r ∈ ss.map Rendered.toResult, ∃ (q : Result) (s : String), r = .ok q ∧ q.sql = .text s := by
  induction h with
  | nil => exact fun _ hr => by cases hr
  | @cons r s rs ss hmarked _ ih =>
    rw [List.map_cons, List.forall_mem_cons] at htexts ⊢
    refine ⟨?_, ih htexts.2⟩
    obtain ⟨i, text, hi, hsql⟩ := htexts.1
    cases r with
    | other value => cases hi
    | result r =>
      cases hi
      obtain ⟨p, rfl, hsame | htext⟩ := marked_result hmarked
      · exact ⟨p, text, rfl, hsame.trans hsql⟩
      · obtain ⟨t, ht⟩ := htext
        exact ⟨p, t, rfl, ht⟩

private theorem renderList_withMarks (sep : String) (values : List Value) :
    ∃ (marked : Result) (s : String),
      (renderList env context.withMarks (.text sep) values).answer = .ok marked ∧
        marked.sql = .text s := by
  have hmarks : values.map (fun _ => Value.text "?") = (values.map fun _ => "?").map .text := by
    rw [List.map_map]
    rfl
  refine ⟨{ sql := .text (String.intercalate sep (values.map fun _ => "?")), bindings := values },
    _, ?_, rfl⟩
  have hparam : context.withMarks.withParameters = true := rfl
  rw [renderList, if_pos hparam, hmarks, joinWith_texts]
  rfl

private theorem marks_renderBy {f : Fragment} (hworded : f.isWorded = true)
    (hcounted : f.isCounted = true) (h : ∀ value ∈ f.parts, value.Marks env context)
    {rendered : Rendered}
    (hok : (f.renderBy id (evaluate env context) env context).answer = .ok rendered) :
    ∃ marked, (f.renderBy id (evaluate env context.withMarks) env context.withMarks).answer =
      .ok marked ∧ rendered.Marked marked := by
  cases f with
  | raw value =>
    obtain ⟨text, _, hresult⟩ := answer_bind_eq_ok.1 hok
    cases hresult
    exact ⟨_, hok, .inl rfl⟩
  | identifier name =>
    obtain ⟨sql, _, hresult⟩ := answer_bind_eq_ok.1 hok
    cases hresult
    exact ⟨_, hok, .inl rfl⟩
  | parameter value =>
    obtain ⟨result, _, hresult⟩ := answer_bind_eq_ok.1 hok
    cases hresult
    exact ⟨.result { sql := .text "?", bindings := [value] }, rfl, .inr ⟨"?", rfl⟩⟩
  | parameterList values separator =>
    obtain ⟨sep, rfl⟩ := Value.text_of_isSome hworded
    obtain ⟨result, _, hresult⟩ := answer_bind_eq_ok.1 hok
    cases hresult
    obtain ⟨marked, s, hmarked, hs⟩ := renderList_withMarks sep values
    exact ⟨.result marked, answer_bind_eq_ok.2 ⟨marked, hmarked, rfl⟩, .inr ⟨s, hs⟩⟩
  | columnList columns separator =>
    obtain ⟨_, _, hrest⟩ := answer_bind_eq_ok.1 hok
    obtain ⟨_, _, hrest⟩ := answer_bind_eq_ok.1 hrest
    obtain ⟨_, _, hrest⟩ := answer_bind_eq_ok.1 hrest
    cases hrest
    exact ⟨_, hok, .inl rfl⟩
  | lines members separator =>
    rw [Fragment.isWorded, Bool.and_eq_true] at hworded
    obtain ⟨sep, rfl⟩ := Value.text_of_isSome hworded.1
    obtain ⟨result, hlines, hresult⟩ := answer_bind_eq_ok.1 hok
    cases hresult
    obtain ⟨marked, s, hmarked, hs⟩ := marks_linesBy h sep hlines
    exact ⟨.result marked, answer_bind_eq_ok.2 ⟨marked, hmarked, rfl⟩, .inr ⟨s, hs⟩⟩
  | clause strings value =>
    simp only [Fragment.isWorded, Bool.and_eq_true, beq_iff_eq] at hworded
    obtain ⟨⟨htexts, hlength⟩, -⟩ := hworded
    obtain ⟨texts, rfl⟩ := Value.texts_of_forall (List.all_eq_true.1 htexts)
    rw [List.length_map] at hlength
    obtain ⟨r, hr, hrest⟩ := answer_bind_eq_ok.1 hok
    obtain ⟨inner, hinner, hrest⟩ := answer_bind_eq_ok.1 hrest
    obtain ⟨result, hsurround, hresult⟩ := answer_bind_eq_ok.1 hrest
    cases hresult
    obtain ⟨marked, hmarked, hrelated⟩ := h value List.mem_cons_self r hr
    rw [Rendered.expect_eq_ok.1 hinner] at hrelated
    obtain ⟨p, rfl, hp⟩ := marked_result hrelated
    obtain ⟨result', s, hresult', hs⟩ := marks_surround hlength hp hsurround
    exact ⟨.result result', answer_bind_eq_ok.2 ⟨.result p, hmarked, answer_bind_eq_ok.2
      ⟨p, rfl, answer_bind_eq_ok.2 ⟨result', hresult', rfl⟩⟩⟩, .inr ⟨s, hs⟩⟩
  | template label form strings values =>
    simp only [Fragment.isWorded, Bool.and_eq_true, beq_iff_eq] at hworded
    obtain ⟨⟨htexts, hlength⟩, -⟩ := hworded
    obtain ⟨texts, rfl⟩ := Value.texts_of_forall (List.all_eq_true.1 htexts)
    rw [List.length_map] at hlength
    obtain ⟨rs, hrs, hrest⟩ := answer_bind_eq_ok.1 hok
    obtain ⟨result, hcompose, hresult⟩ := answer_bind_eq_ok.1 hrest
    cases hresult
    obtain ⟨ss, hss, hrelated⟩ := marks_valuesBy h hrs
    have hcount : texts.length = (ss.map Rendered.toResult).length + 1 := by
      rw [List.length_map, ← hrelated.length_eq, length_valuesBy hrs, hlength]
    have hcomposed : ∃ (result' : Result) (s : String),
        compose (texts.map .text) (ss.map Rendered.toResult) context.withMarks = .ok result' ∧
          result'.sql = .text s :=
      compose_of_texts (texts_of_marked hrelated (texts_of_compose hcompose)) hcount
    obtain ⟨result', s, hresult', hs⟩ := hcomposed
    exact ⟨.result result', answer_bind_eq_ok.2 ⟨ss, hss, answer_bind_eq_ok.2
      ⟨result', hresult', rfl⟩⟩, .inr ⟨s, hs⟩⟩
  | leaf label form text bindings assigned =>
    obtain ⟨_, _, hrest⟩ := answer_bind_eq_ok.1 hok
    obtain ⟨_, _, hrest⟩ := answer_bind_eq_ok.1 hrest
    cases hrest
    exact ⟨_, hok, .inl rfl⟩
  | probe | deferred | endless | unrenderable => cases hcounted

theorem marks_of_isWorded (target : Value) (hworded : target.isWorded = true)
    (hcounted : target.isCounted = true) : target.Marks env context := by
  induction target using Value.parts_induction with
  | fragment f ih =>
    intro rendered hok
    have hnext := next_of_isCounted hcounted
    rw [evaluate, resolve_of_next_none hnext] at hok ⊢
    obtain ⟨_, henter, hok⟩ := answer_bind_eq_ok.1 hok
    have hparts : ∀ value ∈ f.parts, value.Marks env context := fun value hvalue =>
      ih value hvalue (isWorded_part hworded value hvalue) (isCounted_part hcounted value hvalue)
    obtain ⟨marked, hmarked, hrelated⟩ := marks_renderBy hworded hcounted hparts hok
    rw [answer_enter] at henter
    exact ⟨marked, answer_bind_eq_ok.2 ⟨(), (answer_enter f).trans henter, hmarked⟩, hrelated⟩
  | other value hne =>
    intro rendered hok
    cases value with
    | fragment f => exact absurd rfl (hne f)
    | null =>
      cases hok
      exact ⟨_, rfl, .inl rfl⟩
    | text s =>
      refine ⟨.result { sql := .text "?", bindings := [.text s] }, rfl, ?_⟩
      rw [evaluate] at hok
      split at hok
      · cases hok
        exact .inr ⟨"?", rfl⟩
      · split at hok
        · obtain ⟨result, _, hresult⟩ := answer_bind_eq_ok.1 hok
          cases hresult
          exact .inr ⟨"?", rfl⟩
        · cases hok
    | _ => cases hok

end SqlFragments
