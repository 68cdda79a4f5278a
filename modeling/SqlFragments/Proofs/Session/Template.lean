import SqlFragments.Proofs.Render.Compose
import SqlFragments.Proofs.Session.Discerns
import SqlFragments.Proofs.Session.Memory

/-!
# Memory of a template

A template that is rendered by its memory remembers the settings and the result of its last
render that did not fail. What it remembers is right, and what it hands out is right where the
settings are told from those that it was rendered under.
-/

namespace SqlFragments

open Outcome

namespace Session

variable {book : Book} {label : Label} {pattern : Pattern} {admitted : Entries Setting → Prop}

/-! ## One render -/

theorem evaluateNow_template {session : Session} (h : session.Recalls book) (label : Label)
    (hvalues : Value.FiledEach book pattern.values) {options : Options}
    {fields : Entries Setting} (hfields : options.fields = .ok fields)
    (hsteady : (Context.ofFields fields).Steady book) :
    ∃ after, session.evaluateNow (.fragment (pattern.fragment label)) options =
        (after, book.rendered (.ofFields fields) (pattern.fragment label)) ∧
      Follows book session after := by
  have hrender := steady_template h.describes hsteady hvalues label
  have hstart : ({ session with grown := [] } : Session).Recalls book := ⟨h.hostMinutes, h.slots⟩
  have hafter := follows_witness hstart rfl hrender.trace
  refine ⟨_, ?_, ⟨hafter.recalls, hafter.grown, hafter.results, hafter.others⟩⟩
  have hnormalize : options.normalize = .ok (.ofFields fields) := by
    rw [Options.normalize, hfields]
    rfl
  rw [evaluateNow, hnormalize]
  refine Prod.ext rfl ?_
  show (resolve session.environment (.ofFields fields) 0 (pattern.fragment label)).answer.map
    (settle _ Rendered.apply) = _
  rw [hrender.answer, Book.rendered]
  cases (resolve book.environment (.ofFields fields) 0 (pattern.fragment label)).answer with
  | error cause => rfl
  | ok rendered => exact congrArg Except.ok (settle_of_still hafter.grown _ rendered)

theorem resolve_text {env : Environment} {context : Context} {depth : Nat} {rendered : Rendered}
    (h : (resolve env context depth (pattern.fragment label)).answer = .ok rendered) :
    ∃ r s, rendered = .result r ∧ r.sql = .text s := by
  unfold Pattern.fragment at h
  rw [resolve] at h
  obtain ⟨_, _, h⟩ := answer_bind_eq_ok.1 h
  obtain ⟨_, _, h⟩ := answer_bind_eq_ok.1 h
  obtain ⟨r, hr, h⟩ := answer_bind_eq_ok.1 h
  cases h
  rw [answer_ofExcept, compose_eq_map] at hr
  obtain ⟨s, _, rfl⟩ := map_eq_ok.1 hr
  exact ⟨_, s, rfl, rfl⟩

theorem rendered_text {context : Context} {rendered : Rendered}
    (h : book.rendered context (pattern.fragment label) = .ok rendered) :
    ∃ r s, rendered = .result r ∧ r.sql = .text s :=
  resolve_text h

/-- A session in which a template remembers a result of some settings that is right. -/
structure Remembers (book : Book) (label : Label) (pattern : Pattern) (fields : Entries Setting)
    (place : Nat) (session : Session) : Prop where
  recalls : session.Recalls book
  slot : session.slots.lookup label = some ⟨fields, place⟩
  result : ∃ r, session.results[place]? = some r ∧
    book.rendered (.ofFields fields) (pattern.fragment label) = .ok (.result r)

private theorem remembers_keep {session : Session} (h : session.Recalls book)
    (hother : book.pattern? label = none) {fields : Entries Setting} {r : Result}
    (hr : book.rendered (.ofFields fields) (pattern.fragment label) = .ok (.result r)) :
    ((session.keep r).1.remember label fields (session.keep r).2).Remembers book label pattern
      fields (session.keep r).2 := by
  refine ⟨⟨h.hostMinutes, ?_⟩, lookup_remember_self _ _ _ _, r, getElem?_keep session r, hr⟩
  intro other pattern' slot hpattern hslot
  have hne : other ≠ label := by
    rintro rfl
    rw [hother] at hpattern
    cases hpattern
  rw [lookup_remember_of_ne _ hne] at hslot
  obtain ⟨hfields, r', hplace, hr'⟩ := h.slots other pattern' slot hpattern hslot
  obtain ⟨hlt, _⟩ := List.getElem?_eq_some_iff.1 hplace
  exact ⟨hfields, r', (List.getElem?_append_left hlt).trans hplace, hr'⟩

theorem renderTemplate_miss {session : Session} (h : session.Recalls book)
    (hother : book.pattern? label = none) (hvalues : Value.FiledEach book pattern.values)
    {fields : Entries Setting} (hsteady : (Context.ofFields fields).Steady book)
    (hmiss : session.stored? label fields = .ok none) :
    (∃ cause after, book.rendered (.ofFields fields) (pattern.fragment label) = .error cause ∧
      session.renderTemplate label (.fragment (pattern.fragment label)) fields =
        (after, .error cause) ∧ Follows book session after) ∨
    ∃ place after, session.renderTemplate label (.fragment (pattern.fragment label)) fields =
        (after, .ok (.result place)) ∧ after.Remembers book label pattern fields place := by
  have hfields : (Options.mapping 0 fields).fields = .ok fields := rfl
  obtain ⟨after, heq, hafter⟩ := evaluateNow_template h label hvalues hfields hsteady
  rw [renderTemplate, hmiss]
  unfold evaluateAndKeep
  rw [heq]
  cases hrendered : book.rendered (.ofFields fields) (pattern.fragment label) with
  | error cause => exact .inl ⟨cause, after, rfl, rfl, hafter⟩
  | ok rendered =>
    obtain ⟨r, _, rfl, _⟩ := rendered_text hrendered
    exact .inr ⟨_, _, rfl, remembers_keep hafter.recalls hother hrendered⟩

private theorem inline_error {env : Environment} (hnone : env.remembered label = .ok none)
    {x : Outcome Rendered} {cause : Failure} (hx : x.answer = .error cause) :
    env.inline (pattern.fragment label) (fun _ => x) =
      ⟨[.inlined label x.trace none], .error cause⟩ := by
  obtain ⟨trace, answer⟩ := x
  cases hx
  simp only [Pattern.fragment, Environment.inline, hnone]
  rfl

private theorem inline_text {env : Environment} (hnone : env.remembered label = .ok none)
    {x : Outcome Rendered} {r : Result} {s : String} (hx : x.answer = .ok (.result r))
    (hs : r.sql = .text s) :
    env.inline (pattern.fragment label) (fun _ => x) =
      ⟨[.inlined label x.trace (some r)], .ok s⟩ := by
  obtain ⟨trace, answer⟩ := x
  obtain ⟨sql, bindings, method, hooks⟩ := r
  cases hx
  cases hs
  simp only [Pattern.fragment, Environment.inline, hnone]
  rfl

private theorem plainText_template (env : Environment) :
    plainText env (.fragment (pattern.fragment label)) =
      env.inline (pattern.fragment label) fun _ =>
        resolve env .inlined 0 (pattern.fragment label) := by
  simp only [plainText]

section

variable {session : Session} (hmiss : session.stored? label (inlinedFields []) = .ok none)

include hmiss

private theorem remembered_miss : session.environment.remembered label = .ok none := by
  simp [environment, hmiss, Except.map]

theorem observe_written_error {cause : Failure}
    (hrender : (resolve session.environment .inlined 0 (pattern.fragment label)).answer =
      .error cause) :
    session.observe (plainText session.environment (.fragment (pattern.fragment label))) =
      (({ session with grown := [] } : Session).witness
        (resolve session.environment .inlined 0 (pattern.fragment label)).trace,
        .error cause) := by
  have hmiss' : ({ session with grown := [] } : Session).stored? label (inlinedFields []) =
      .ok none := hmiss
  rw [plainText_template, inline_error (remembered_miss hmiss) hrender, observe]
  refine Prod.ext ?_ rfl
  unfold witness
  rw [noteAll, note, hmiss']
  rfl

theorem observe_written_text {r : Result} {s : String}
    (hrender : (resolve session.environment .inlined 0 (pattern.fragment label)).answer =
      .ok (.result r)) (hs : r.sql = .text s) {after : Session}
    (hafter : ({ session with grown := [] } : Session).witness
      (resolve session.environment .inlined 0 (pattern.fragment label)).trace = after)
    (hgrown : after.grown = []) :
    session.observe (plainText session.environment (.fragment (pattern.fragment label))) =
      ((after.keep r).1.remember label (inlinedFields []) (after.keep r).2, .ok s) := by
  have hmiss' : ({ session with grown := [] } : Session).stored? label (inlinedFields []) =
      .ok none := hmiss
  have hsettle := settle_of_still hgrown Result.apply r
  rw [plainText_template, inline_text (remembered_miss hmiss) hrender hs, observe]
  refine Prod.ext ?_ rfl
  subst hafter
  unfold witness at hsettle ⊢
  rw [noteAll, note, hmiss']
  simp only [hsettle]
  rfl

end

theorem observe_written_miss {session : Session} (h : session.Recalls book)
    (hother : book.pattern? label = none) (hvalues : Value.FiledEach book pattern.values)
    (hmiss : session.stored? label (inlinedFields []) = .ok none) :
    (∃ cause after,
      book.rendered (.ofFields (inlinedFields [])) (pattern.fragment label) = .error cause ∧
      session.observe (plainText session.environment (.fragment (pattern.fragment label))) =
        (after, .error cause) ∧ Follows book session after) ∨
    ∃ r s after,
      book.rendered (.ofFields (inlinedFields [])) (pattern.fragment label) = .ok (.result r) ∧
      r.sql = .text s ∧
      session.observe (plainText session.environment (.fragment (pattern.fragment label))) =
        (after, .ok s) ∧
      ∃ place, after.Remembers book label pattern (inlinedFields []) place := by
  have hrender := steady_template h.describes Book.steady_inlined hvalues label
  have hstart : ({ session with grown := [] } : Session).Recalls book := ⟨h.hostMinutes, h.slots⟩
  have hafter := follows_witness hstart rfl hrender.trace
  have hcontext : Context.ofFields (inlinedFields []) = .inlined := rfl
  rw [hcontext]
  cases hrendered : book.rendered .inlined (pattern.fragment label) with
  | error cause =>
    left
    exact ⟨cause, _, rfl, observe_written_error hmiss (hrender.answer.trans hrendered),
      hafter.recalls, hafter.grown, hafter.results, hafter.others⟩
  | ok rendered =>
    right
    obtain ⟨r, s, rfl, hs⟩ := rendered_text hrendered
    have hinlined : book.rendered (.ofFields (inlinedFields [])) (pattern.fragment label) =
        .ok (.result r) := hrendered
    exact ⟨r, s, _, rfl, hs,
      observe_written_text hmiss (hrender.answer.trans hrendered) hs rfl hafter.grown, _,
      remembers_keep hafter.recalls hother hinlined⟩

/-! ## What a template remembers -/

/-- A session in which a template remembers, if anything, a right result of admitted settings, and
the templates in it what is right. -/
structure Knows (book : Book) (label : Label) (pattern : Pattern)
    (admitted : Entries Setting → Prop) (session : Session) : Prop where
  recalls : session.Recalls book
  slot : ∀ slot, session.slots.lookup label = some slot → admitted slot.fields ∧
    session.Remembers book label pattern slot.fields slot.result

namespace Remembers

theorem knows {session : Session} {fields : Entries Setting} {place : Nat}
    (h : session.Remembers book label pattern fields place) (hfields : admitted fields) :
    session.Knows book label pattern admitted := by
  refine ⟨h.recalls, ?_⟩
  intro slot hslot
  rw [h.slot] at hslot
  cases hslot
  exact ⟨hfields, h⟩

end Remembers

namespace Knows

theorem of_follows {before after : Session} (h : before.Knows book label pattern admitted)
    (hother : book.pattern? label = none) (hfollows : Follows book before after) :
    after.Knows book label pattern admitted := by
  refine ⟨hfollows.recalls, ?_⟩
  intro slot hslot
  rw [hfollows.others label hother] at hslot
  obtain ⟨hfields, hremembers⟩ := h.slot slot hslot
  obtain ⟨r, hplace, hr⟩ := hremembers.result
  have hkept := hfollows.others label hother
  exact ⟨hfields, hfollows.recalls, hkept.trans hslot, r, hfollows.results _ r hplace, hr⟩

theorem of_spares {before after : Session} (h : before.Knows book label pattern admitted)
    (hspares : before.Spares after) : after.Knows book label pattern admitted := by
  have hrecalls : after.Recalls book := by
    refine ⟨hspares.hostMinutes.trans h.recalls.hostMinutes, ?_⟩
    intro other pattern' slot hpattern hslot
    rw [hspares.slots] at hslot
    obtain ⟨hfields, r, hplace, hr⟩ := h.recalls.slots other pattern' slot hpattern hslot
    exact ⟨hfields, r, hspares.results _ r hplace, hr⟩
  refine ⟨hrecalls, ?_⟩
  intro slot hslot
  rw [hspares.slots] at hslot
  obtain ⟨hfields, hremembers⟩ := h.slot slot hslot
  obtain ⟨r, hplace, hr⟩ := hremembers.result
  have hkept : after.slots.lookup label = some slot := by rw [hspares.slots, hslot]
  exact ⟨hfields, hrecalls, hkept, r, hspares.results _ r hplace, hr⟩

end Knows

theorem Knows.stored {session : Session} (h : session.Knows book label pattern admitted)
    (fields : Entries Setting) :
    session.stored? label fields = .ok none ∨
    (session.stored? label fields = .error .badNumber ∧
      ((∀ left, admitted left → book.Discerns (pattern.fragment label) left fields) →
        book.rendered (.ofFields fields) (pattern.fragment label) = .error .badNumber)) ∨
    ∃ place left r, session.stored? label fields = .ok (some place) ∧
      session.results[place]? = some r ∧
      book.rendered (.ofFields left) (pattern.fragment label) = .ok (.result r) ∧
      ((∀ left, admitted left → book.Discerns (pattern.fragment label) left fields) →
        ∃ r', book.rendered (.ofFields fields) (pattern.fragment label) = .ok (.result r') ∧
          r.Same r') := by
  cases hslot : session.slots.lookup label with
  | none =>
    left
    rw [stored?, hslot]
  | some slot =>
    obtain ⟨hleft, hremembers⟩ := h.slot slot hslot
    obtain ⟨r, hplace, hr⟩ := hremembers.result
    cases hagree : fieldsAgree? slot.fields fields with
    | none =>
      have hstored : session.stored? label fields = .error .badNumber := by
        simp only [stored?, hslot, hagree]
      refine .inr (.inl ⟨hstored, fun hdiscerns => ?_⟩)
      have hfails := hdiscerns slot.fields hleft r hr
      rwa [hagree] at hfails
    | some agree =>
      have hstored : session.stored? label fields =
          .ok (if agree then some slot.result else none) := by
        simp only [stored?, hslot, hagree]
      cases agree with
      | false => exact .inl hstored
      | true =>
        refine .inr (.inr ⟨slot.result, slot.fields, r, hstored, hplace, hr, fun hdiscerns => ?_⟩)
        have hsame := hdiscerns slot.fields hleft r hr
        rwa [hagree] at hsame

def Gives (session : Session) (expected : Except Failure Rendered)
    (answer : Except Failure Handout) : Prop :=
  (∃ r r' place, expected = .ok (.result r) ∧ answer = .ok (.result place) ∧
    session.results[place]? = some r' ∧ r'.Same r) ∨
  ∃ cause, expected = .error cause ∧ answer = .error cause

/-- Memory knows after a render by it what it should, and gives what it should where the settings
are told from those that are remembered. -/
theorem renderTemplate_knows {session : Session}
    (h : session.Knows book label pattern admitted) (hother : book.pattern? label = none)
    (hvalues : Value.FiledEach book pattern.values) {fields : Entries Setting}
    (hfields : admitted fields) (hsteady : (Context.ofFields fields).Steady book) :
    (session.renderTemplate label (.fragment (pattern.fragment label)) fields).1.Knows book label
        pattern admitted ∧
      ((∀ left, admitted left → book.Discerns (pattern.fragment label) left fields) →
        (session.renderTemplate label (.fragment (pattern.fragment label)) fields).1.Gives
          (book.rendered (.ofFields fields) (pattern.fragment label))
          (session.renderTemplate label (.fragment (pattern.fragment label)) fields).2) := by
  rcases h.stored fields with
    hmiss | ⟨hstored, hfails⟩ | ⟨place, left, r, hstored, hplace, _, hsame⟩
  · rcases renderTemplate_miss h.recalls hother hvalues hsteady hmiss with
      ⟨cause, after, hrendered, hrender, hafter⟩ | ⟨place, after, hrender, hafter⟩
    · rw [hrender]
      exact ⟨h.of_follows hother hafter, fun _ => .inr ⟨cause, hrendered, rfl⟩⟩
    · obtain ⟨r, hplace, hr⟩ := hafter.result
      rw [hrender]
      exact ⟨hafter.knows hfields, fun _ => .inl ⟨r, r, place, hr, rfl, hplace, .inl rfl⟩⟩
  · rw [renderTemplate, hstored]
    exact ⟨h, fun hdiscerns => .inr ⟨.badNumber, hfails hdiscerns, rfl⟩⟩
  · rw [renderTemplate, hstored]
    refine ⟨h, fun hdiscerns => ?_⟩
    obtain ⟨r', hr', hsame⟩ := hsame hdiscerns
    exact .inl ⟨r', r, place, hr', rfl, hplace, hsame⟩

end Session

end SqlFragments
