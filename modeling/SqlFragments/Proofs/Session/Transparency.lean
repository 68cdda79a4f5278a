import Mathlib
import SqlFragments.Proofs.Session.Call
import SqlFragments.Proofs.Session.Template

/-!
# Transparent memory

Each call of a template answers as rendering it at that moment without its memory does, as long as
the comparison of settings tells apart those under which it renders differently. With settings
that it takes for others although they are not, two calls are enough for a wrong answer.
-/

namespace SqlFragments

open Outcome

namespace Session

variable {book : Book} {label : Label} {pattern : Pattern} {admitted : Entries Setting → Prop}

/-! ## Replies -/

private theorem sql_eq_of_same {r r' : Result} {s : String} (h : r'.Same r) (hs : r.sql = .text s) :
    r'.sql = r.sql := by
  rcases h with rfl | h
  · rfl
  · rw [Result.equal?] at h
    cases hsql : r'.sql.same? r.sql with
    | none =>
      rw [hsql] at h
      cases h
    | some same =>
      rw [hsql] at h
      cases same with
      | false => cases h
      | true =>
        rw [hs] at hsql ⊢
        exact Value.sameKey_text.1 (beq_iff_eq.2 hsql)

private theorem own_knows {session : Session} (h : session.Knows book label pattern admitted)
    (hother : book.pattern? label = none) (hvalues : Value.FiledEach book pattern.values)
    {options : Options} {fields : Entries Setting} (hfields : options.fields = .ok fields)
    (hadmitted : admitted fields) (hsteady : (Context.ofFields fields).Steady book) :
    (session.perform ((Call.own options).step (pattern.fragment label))).1.Knows book label pattern
        admitted ∧
      ((∀ left, admitted left → book.Discerns (pattern.fragment label) left fields) →
        (Call.own options).Meets (book.rendered (.ofFields fields) (pattern.fragment label))
          (session.perform ((Call.own options).step (pattern.fragment label))).2) := by
  obtain ⟨hknows, hgives⟩ := renderTemplate_knows h hother hvalues hadmitted hsteady
  have hperform := spares_perform_render session .own (.fragment (pattern.fragment label)) options
  rw [Call.step, perform_render_reply]
  rw [render_own hfields] at hperform ⊢
  refine ⟨hknows.of_spares hperform, fun hdiscerns => ?_⟩
  rcases hgives hdiscerns with
    ⟨r, r', place, hexpected, hanswer, hplace, hsame⟩ | ⟨cause, hexpected, hanswer⟩
  · rw [hanswer, handOut_result hplace]
    exact .inl ⟨r, _, hexpected, rfl, r', _, rfl, hsame⟩
  · rw [hanswer]
    exact .inr ⟨cause, hexpected, rfl⟩

private theorem inlined_knows {session : Session} (h : session.Knows book label pattern admitted)
    (hother : book.pattern? label = none) (hvalues : Value.FiledEach book pattern.values)
    {options : Options} {fields : Entries Setting} (hfields : options.fields = .ok fields)
    (hadmitted : admitted (inlinedFields fields))
    (hsteady : (Context.ofFields (inlinedFields fields)).Steady book) :
    (session.perform ((Call.inlined options).step (pattern.fragment label))).1.Knows book label
        pattern admitted ∧
      ((∀ left, admitted left →
          book.Discerns (pattern.fragment label) left (inlinedFields fields)) →
        (Call.inlined options).Meets
          (book.rendered (.ofFields (inlinedFields fields)) (pattern.fragment label))
          (session.perform ((Call.inlined options).step (pattern.fragment label))).2) := by
  obtain ⟨hknows, hgives⟩ := renderTemplate_knows h hother hvalues hadmitted hsteady
  have hperform := spares_perform_render session .inlined (.fragment (pattern.fragment label))
    options
  rw [Call.step, perform_render_reply]
  rw [render_inlined hfields] at hperform ⊢
  refine ⟨hknows.of_spares hperform, fun hdiscerns => ?_⟩
  rcases hgives hdiscerns with
    ⟨r, r', place, hexpected, hanswer, hplace, hsame⟩ | ⟨cause, hexpected, hanswer⟩
  · obtain ⟨_, s, hr, hs⟩ := rendered_text hexpected
    cases hr
    rw [hanswer, handOutText_result hplace, sql_eq_of_same hsame hs]
    exact .inl ⟨r, _, hexpected, rfl, rfl⟩
  · rw [hanswer]
    exact .inr ⟨cause, hexpected, rfl⟩

private theorem written_knows {session : Session} (h : session.Knows book label pattern admitted)
    (hother : book.pattern? label = none) (hvalues : Value.FiledEach book pattern.values)
    (hadmitted : admitted (inlinedFields [])) :
    (session.perform (Call.written.step (pattern.fragment label))).1.Knows book label pattern
        admitted ∧
      ((∀ left, admitted left → book.Discerns (pattern.fragment label) left (inlinedFields [])) →
        Call.written.Meets (book.rendered (.ofFields (inlinedFields [])) (pattern.fragment label))
          (session.perform (Call.written.step (pattern.fragment label))).2) := by
  have hperform := spares_perform_render session .plainText (.fragment (pattern.fragment label))
    .absent
  rw [Call.step, perform_render_reply]
  rw [render_written] at hperform ⊢
  have hcleared : session.Spares { session with grown := [] } := ⟨rfl, rfl, fun _ _ hr => hr⟩
  rcases h.stored (inlinedFields []) with
    hmiss | ⟨hstored, hfails⟩ | ⟨place, left, r, hstored, hplace, hr, hsame⟩
  · rcases observe_written_miss h.recalls hother hvalues hmiss with
      ⟨cause, after, hrendered, hobserve, hafter⟩ |
      ⟨r, s, after, hrendered, hs, hobserve, place, hafter⟩
    · rw [hobserve] at hperform ⊢
      exact ⟨(h.of_follows hother hafter).of_spares hperform,
        fun _ => .inr ⟨cause, hrendered, rfl⟩⟩
    · rw [hobserve] at hperform ⊢
      refine ⟨(hafter.knows hadmitted).of_spares hperform, fun _ => .inl ⟨r, _, hrendered, rfl, ?_⟩⟩
      show Reply.plain (.text s) = .plain r.sql
      rw [hs]
  · have herror : session.environment.remembered label = .error .badNumber := by
      simp [environment, hstored, Except.map]
    rw [plainText_error herror, observe_silent] at hperform ⊢
    exact ⟨(h.of_spares hcleared).of_spares hperform,
      fun hdiscerns => .inr ⟨.badNumber, hfails hdiscerns, rfl⟩⟩
  · have hsome : session.environment.remembered label = .ok (some r.sql) := by
      simp [environment, hstored, Except.map, hplace]
    obtain ⟨_, s, hresult, hs⟩ := rendered_text hr
    cases hresult
    rw [plainText_remembered hsome hs, observe_silent] at hperform ⊢
    refine ⟨(h.of_spares hcleared).of_spares hperform, fun hdiscerns => ?_⟩
    obtain ⟨r', hr', hsame⟩ := hsame hdiscerns
    obtain ⟨_, t, hresult, ht⟩ := rendered_text hr'
    cases hresult
    have htext : Reply.plain (.text s) = .plain r'.sql := by
      rw [← sql_eq_of_same hsame ht, hs]
    exact .inl ⟨r', _, hr', rfl, htext⟩

/-! ## Calls one after the other -/

private theorem fresh_eq {session : Session} (h : session.Recalls book)
    (hvalues : Value.FiledEach book pattern.values) {call : Call} {fields : Entries Setting}
    (hfields : call.fields = .ok fields) (hsteady : (Context.ofFields fields).Steady book) :
    call.fresh session (pattern.fragment label) =
      book.rendered (.ofFields fields) (pattern.fragment label) := by
  cases call with
  | own options =>
    obtain ⟨_, heq, _⟩ := evaluateNow_template h label hvalues hfields hsteady
    rw [Call.fresh, heq]
  | inlined options =>
    obtain ⟨given, hgiven, rfl⟩ := map_eq_ok.1 hfields
    have hmapping : (Options.mapping 0 (inlinedFields given)).fields =
        .ok (inlinedFields given) := rfl
    obtain ⟨_, heq, _⟩ := evaluateNow_template h label hvalues hmapping hsteady
    rw [Call.fresh, hgiven]
    exact congrArg Prod.snd heq
  | written =>
    cases hfields
    have hmapping : (Options.mapping 0 (inlinedFields [])).fields = .ok (inlinedFields []) := rfl
    obtain ⟨_, heq, _⟩ := evaluateNow_template h label hvalues hmapping hsteady
    rw [Call.fresh, heq]

private theorem call_error {session : Session} {call : Call} {cause : Failure}
    (herror : call.fields = .error cause) :
    session.Spares (session.perform (call.step (pattern.fragment label))).1 ∧
      call.Transparent session (pattern.fragment label) := by
  have hskip : session.Spares session.skip := ⟨rfl, rfl, fun _ _ hr => hr⟩
  rw [Call.Transparent, perform_call_error herror]
  refine ⟨hskip, .inr ⟨cause, ?_, rfl⟩⟩
  cases call with
  | own options =>
    have hfields : options.fields = .error cause := herror
    rw [Call.fresh, evaluateNow, Options.normalize, hfields]
    rfl
  | inlined options =>
    cases hfields : options.fields with
    | error other =>
      rw [Call.fields, hfields] at herror
      cases herror
      rw [Call.fresh, hfields]
      rfl
    | ok fields =>
      rw [Call.fields, hfields] at herror
      cases herror
  | written => cases herror

private theorem knows_call {session : Session} (h : session.Knows book label pattern admitted)
    (hother : book.pattern? label = none) (hvalues : Value.FiledEach book pattern.values)
    (hsettings : ∀ fields, admitted fields → (Context.ofFields fields).Steady book) {call : Call}
    (hadmitted : call.Admitted admitted) :
    (session.perform (call.step (pattern.fragment label))).1.Knows book label pattern admitted ∧
      ((∀ left right, admitted left → admitted right →
          book.Discerns (pattern.fragment label) left right) →
        call.Transparent session (pattern.fragment label)) := by
  cases hfields : call.fields with
  | error cause =>
    obtain ⟨hspares, htransparent⟩ := call_error hfields
    exact ⟨h.of_spares hspares, fun _ => htransparent⟩
  | ok fields =>
    have hright := hadmitted fields hfields
    have hsteady := hsettings fields hright
    unfold Call.Transparent
    rw [fresh_eq h.recalls hvalues hfields hsteady]
    cases call with
    | own options =>
      obtain ⟨hknows, hmeets⟩ := own_knows h hother hvalues hfields hright hsteady
      exact ⟨hknows, fun hdiscerns => hmeets fun left hleft => hdiscerns left _ hleft hright⟩
    | inlined options =>
      obtain ⟨given, hgiven, rfl⟩ := map_eq_ok.1 hfields
      obtain ⟨hknows, hmeets⟩ := inlined_knows h hother hvalues hgiven hright hsteady
      exact ⟨hknows, fun hdiscerns => hmeets fun left hleft => hdiscerns left _ hleft hright⟩
    | written =>
      cases hfields
      obtain ⟨hknows, hmeets⟩ := written_knows h hother hvalues hright
      exact ⟨hknows, fun hdiscerns => hmeets fun left hleft => hdiscerns left _ hleft hright⟩

/-- However a template is called, what it remembers is right. -/
theorem Calling.knows {session : Session}
    (hcalling : Calling book.hostMinutes (pattern.fragment label) admitted session)
    (hother : book.pattern? label = none) (hvalues : Value.FiledEach book pattern.values)
    (hsettings : ∀ fields, admitted fields → (Context.ofFields fields).Steady book) :
    session.Knows book label pattern admitted := by
  induction hcalling with
  | start hhost hslots =>
    refine ⟨⟨hhost, ?_⟩, ?_⟩
    · intro _ _ _ _ hslot
      rw [hslots] at hslot
      cases hslot
    · intro _ hslot
      rw [hslots] at hslot
      cases hslot
  | call _ call hadmitted ih => exact (knows_call ih hother hvalues hsettings hadmitted).1
  | other _ step hspares ih => exact ih.of_spares hspares

private theorem remembers_own {session : Session} (h : session.Recalls book)
    (hother : book.pattern? label = none) (hvalues : Value.FiledEach book pattern.values)
    {fields : Entries Setting} (hsteady : (Context.ofFields fields).Steady book) {r : Result}
    (hr : book.rendered (.ofFields fields) (pattern.fragment label) = .ok (.result r))
    (hmiss : session.stored? label fields = .ok none) :
    ∃ place, (session.perform ((Call.own (.mapping 0 fields)).step
        (pattern.fragment label))).1.slots.lookup label = some ⟨fields, place⟩ ∧
      (session.perform ((Call.own (.mapping 0 fields)).step
        (pattern.fragment label))).1.results[place]? = some r := by
  have hfields : (Options.mapping 0 fields).fields = .ok fields := rfl
  have hperform := spares_perform_render session .own (.fragment (pattern.fragment label))
    (.mapping 0 fields)
  rw [render_own hfields] at hperform
  rcases renderTemplate_miss h hother hvalues hsteady hmiss with
    ⟨cause, after, hrendered, hrender, hafter⟩ | ⟨place, after, hrender, hafter⟩
  · rw [hr] at hrendered
    cases hrendered
  · obtain ⟨r', hplace, hr'⟩ := hafter.result
    rw [hr] at hr'
    cases hr'
    rw [hrender] at hperform
    refine ⟨place, ?_, hperform.results place r hplace⟩
    rw [Call.step, hperform.slots]
    exact hafter.slot

theorem transparent_of_discerns (hother : book.pattern? label = none)
    (hvalues : Value.FiledEach book pattern.values)
    (hsettings : ∀ fields, admitted fields → (Context.ofFields fields).Steady book)
    (hdiscerns : ∀ left right, admitted left → admitted right →
      book.Discerns (pattern.fragment label) left right) {session : Session}
    (hcalling : Calling book.hostMinutes (pattern.fragment label) admitted session) {call : Call}
    (hadmitted : call.Admitted admitted) : call.Transparent session (pattern.fragment label) :=
  (knows_call (hcalling.knows hother hvalues hsettings) hother hvalues hsettings hadmitted).2
    hdiscerns

/-- All calls of a template are transparent, in whatever order and however often they are made,
exactly when settings that it renders differently under are told from each other. -/
theorem transparent_iff_discerns (hother : book.pattern? label = none)
    (hvalues : Value.FiledEach book pattern.values)
    (hsettings : ∀ fields, admitted fields → (Context.ofFields fields).Steady book) :
    (∀ session, Calling book.hostMinutes (pattern.fragment label) admitted session →
      ∀ call : Call, call.Admitted admitted → call.Transparent session (pattern.fragment label)) ↔
    ∀ left right, admitted left → admitted right →
      book.Discerns (pattern.fragment label) left right := by
  constructor
  · intro htransparent left right hleft hright r hr
    -- Render under the left settings in a new session, then under the right ones.
    have hstart : Calling book.hostMinutes (pattern.fragment label) admitted
        { hostMinutes := book.hostMinutes } := .start rfl rfl
    have hadmitted : ∀ fields, admitted fields →
        (Call.own (.mapping 0 fields)).Admitted admitted := by
      intro fields hfields _ hown
      cases hown
      exact hfields
    have hcalled := hstart.call _ (hadmitted left hleft)
    have hfirst := (hstart.knows hother hvalues hsettings).recalls
    obtain ⟨place, hslot, hplace⟩ :=
      remembers_own hfirst hother hvalues (hsettings left hleft) hr rfl
    have hrecalls := (hcalled.knows hother hvalues hsettings).recalls
    have hfields : (Options.mapping 0 right).fields = .ok right := rfl
    have hown : (Call.own (.mapping 0 right)).fields = .ok right := hfields
    have hmeets := htransparent _ hcalled _ (hadmitted right hright)
    rw [Call.Transparent, fresh_eq hrecalls hvalues hown (hsettings right hright)] at hmeets
    generalize (({ hostMinutes := book.hostMinutes } : Session).perform
      ((Call.own (.mapping 0 left)).step (pattern.fragment label))).1 = session at *
    rw [Call.step, perform_render_reply, render_own hfields] at hmeets
    cases hagree : fieldsAgree? left right with
    | none =>
      have hstored : session.stored? label right = .error .badNumber := by
        simp only [stored?, hslot, hagree]
      simp only [renderTemplate, hstored] at hmeets
      rcases hmeets with ⟨_, _, _, hanswer, _⟩ | ⟨cause, hrendered, hanswer⟩
      · cases hanswer
      · cases hanswer
        exact hrendered
    | some agree =>
      cases agree with
      | false => trivial
      | true =>
        have hstored : session.stored? label right = .ok (some place) := by
          simp only [stored?, hslot, hagree]
          rfl
        simp only [renderTemplate, hstored] at hmeets
        rw [handOut_result hplace] at hmeets
        rcases hmeets with ⟨r', _, hrendered, hanswer, hsame⟩ | ⟨_, _, hanswer⟩
        · cases hanswer
          obtain ⟨_, _, hreply, hsame⟩ := hsame
          cases hreply
          exact ⟨r', hrendered, hsame⟩
        · cases hanswer
  · intro hdiscerns session hcalling call hadmitted
    exact transparent_of_discerns hother hvalues hsettings hdiscerns hcalling hadmitted

/-- Under plain settings with the functions of the library all calls of one template are
transparent. -/
theorem transparent_iff_discerns_select :
    let pattern : Pattern := ⟨.statement, [.text "SELECT ", .text ""], [.int 5]⟩
    let admitted := Entries.Plain fun label =>
      if label = 0 then .literalEscaper .standard else .identifierEscaper .standard
    ∀ session, Calling 0 (pattern.fragment 0) admitted session →
      ∀ call : Call, call.Admitted admitted → call.Transparent session (pattern.fragment 0) := by
  intro pattern admitted
  have hother : ({} : Book).pattern? 0 = none := rfl
  have hvalues : Value.FiledEach {} pattern.values := ⟨trivial, trivial⟩
  have hfunctions : ∀ label : Label,
      (if label = 0 then Setting.literalEscaper .standard
        else .identifierEscaper .standard).toLiteralEscaper.Steady {} ∧
      (if label = 0 then Setting.literalEscaper .standard
        else .identifierEscaper .standard).toIdentifierEscaper.Steady {} := by
    intro label
    split
    · exact ⟨trivial, fun _ _ henv hname => steady_literal henv hname trivial⟩
    · exact ⟨fun _ _ _ _ _ _ => .ofExcept _, trivial⟩
  have hsettings : ∀ fields, admitted fields → (Context.ofFields fields).Steady {} :=
    fun _ hfields => hfields.steady hfunctions
  exact (transparent_iff_discerns hother hvalues hsettings).2
    fun _ _ hleft hright => Book.discerns_of_plain {} _ hleft hright

/-- A render without placeholders is handed out again under zero, which turns them on. -/
theorem not_transparent_zero :
    let f : Fragment := .template 0 .statement [.text "SELECT ", .text ""] [.int 5]
    let first := Call.own (.mapping 0 [(withParametersKey, .value (.bool false))])
    let second := Call.own (.mapping 1 [(withParametersKey, .value (.int 0))])
    ¬ second.Transparent (({} : Session).perform (first.step f)).1 f := by
  intro f first second h
  have hfresh : second.fresh (({} : Session).perform (first.step f)).1 f =
      .ok (.result { sql := .text "SELECT ?", bindings := [.int 5] }) := by cbv
  have hanswer : ((({} : Session).perform (first.step f)).1.perform (second.step f)).2 =
      .ok (.result { sql := .text "SELECT 5" } (some 0)) := by cbv
  rw [Call.Transparent, hfresh, hanswer] at h
  rcases h with ⟨_, _, hr, hreply, _, _, htells, hsame⟩ | ⟨_, _, herror⟩
  · cases hr
    cases hreply
    cases htells
    exact absurd (Value.text.inj (sql_eq_of_same hsame rfl)) (by decide)
  · cases herror

end Session

end SqlFragments
