import SqlFragments.Proofs.Session.Call
import SqlFragments.Proofs.Session.Nested
import SqlFragments.Proofs.Session.Template

/-!
# Consulting a slot

What one call of a template comes to. It fails, it hands out the result that the template remembers,
or it hands out a new one, which the template remembers from then on. All three ways of calling a
template consult its slot alike, and differ in what they hand out.
-/

namespace SqlFragments

open Outcome

/-- A memory after another in which a template remembers a new result under some settings. -/
structure Memory.Renews (label : Label) (fields : Entries Setting) (place : Nat)
    (before after : Memory) : Prop where
  new : before.results.length ≤ place
  result : ∃ r s, after.results[place]? = some r ∧ r.sql = .text s
  slot : after.slots.lookup label = some ⟨fields, place⟩
  results : before.results <+: after.results
  options : after.options = before.options
  grown : after.grown = []

namespace Call

/-- A call under settings that avoid a template: no setting writes it out in the middle of its own
render, which would be a call inside the call. -/
def Avoids (label : Label) (call : Call) : Prop :=
  ∀ fields, call.fields = .ok fields → (Context.ofFields fields).Avoids label

/-- A call of a template hands out the result at a place: the result itself, or the text of it, and
then it is the result that the template remembers. -/
def HandsOut (call : Call) (session : Session) (label : Label) (pattern : Pattern) (place : Nat) :
    Prop :=
  let after := session.perform (call.step (pattern.fragment label))
  ∃ r, after.1.results[place]? = some r ∧ match call with
    | own _ => ∃ sameAs, after.2 = .ok (.result r sameAs) ∧
      after.1.handouts.getLast? = some (.result place)
    | _ => after.2 = .ok (.plain r.sql) ∧
      ∃ fields, after.1.slots.lookup label = some ⟨fields, place⟩

end Call

namespace Session

variable {label : Label} {pattern : Pattern} {past : List Slot} {session : Session}

structure Holds (label : Label) (past : List Slot) (session : Session) : Prop where
  grown : session.grown = []
  slot : session.slots.lookup label = past.head?
  places : (past.map (·.result)).Nodup
  results : ∀ slot ∈ past, ∃ r s, session.results[slot.result]? = some r ∧ r.sql = .text s

def Differs (past : List Slot) (fields : Entries Setting) : Prop :=
  ∀ latest, past.head? = some latest → ¬ latest.fields.Alike fields

/-- How a template goes by its slot under some settings. It fails, it finds what is remembered, or
it is rendered anew, and the new result is remembered from then on. The answer is the place of the
result and its text. -/
inductive Consults (label : Label) (past : List Slot) (session : Session)
    (fields : Entries Setting) : Session → Except Failure (Nat × String) → Prop
  | failed {after : Session} (cause : Failure)
    (hkeeps : session.memory.Keeps label after.memory) (hdiffers : Differs past fields) :
    Consults label past session fields after (.error cause)
  | again {latest : Slot} {s : String} (hlatest : past.head? = some latest)
    (halike : latest.fields.Alike fields)
    (hresult : ∃ r, session.results[latest.result]? = some r ∧ r.sql = .text s) :
    Consults label past session fields session (.ok (latest.result, s))
  | anew {after : Session} {place : Nat} {s : String}
    (hrenews : session.memory.Renews label fields place after.memory)
    (hdiffers : Differs past fields)
    (hresult : ∃ r, after.results[place]? = some r ∧ r.sql = .text s) :
    Consults label past session fields after (.ok (place, s))

/-! ## What the slot says -/

private theorem stored_cases (h : session.Holds label past) (fields : Entries Setting) :
    (session.stored? label fields = .error .badNumber ∧ Differs past fields) ∨
    (session.stored? label fields = .ok none ∧ Differs past fields) ∨
    ∃ latest, past.head? = some latest ∧ latest.fields.Alike fields ∧
      session.stored? label fields = .ok (some latest.result) := by
  cases hlatest : past.head? with
  | none =>
    refine .inr (.inl ⟨?_, fun _ hsome => ?_⟩)
    · rw [stored?, h.slot, hlatest]
    · rw [hlatest] at hsome
      cases hsome
  | some latest =>
    have hdiffers : ¬ latest.fields.Alike fields → Differs past fields := by
      intro hunlike slot hslot
      rw [hlatest] at hslot
      cases hslot
      exact hunlike
    cases hagree : fieldsAgree? latest.fields fields with
    | none =>
      refine .inl ⟨?_, hdiffers fun halike => ?_⟩
      · simp only [stored?, h.slot, hlatest, hagree]
      · rw [fieldsAgree?_eq_some_true_iff.2 halike] at hagree
        cases hagree
    | some agree =>
      have hstored : session.stored? label fields =
          .ok (if agree then some latest.result else none) := by
        simp only [stored?, h.slot, hlatest, hagree]
      cases agree with
      | false =>
        refine .inr (.inl ⟨hstored, hdiffers fun halike => ?_⟩)
        rw [fieldsAgree?_eq_some_true_iff.2 halike] at hagree
        cases hagree
      | true =>
        exact .inr (.inr ⟨latest, rfl, fieldsAgree?_eq_some_true_iff.1 hagree, hstored⟩)

private theorem Consults.remembered (h : session.Holds label past) {fields : Entries Setting}
    {after : Session} {place : Nat} {s : String}
    (hconsults : Consults label past session fields after (.ok (place, s))) :
    ∃ r kept, after.results[place]? = some r ∧ r.sql = .text s ∧
      after.slots.lookup label = some ⟨kept, place⟩ := by
  cases hconsults with
  | @again latest _ hlatest _ hresult =>
    obtain ⟨r, hresult, hs⟩ := hresult
    exact ⟨r, latest.fields, hresult, hs, h.slot.trans hlatest⟩
  | anew hrenews _ hresult =>
    obtain ⟨r, hresult, hs⟩ := hresult
    exact ⟨r, fields, hresult, hs, hrenews.slot⟩

/-! ## Consulting it -/

private theorem consults_keep {after : Session}
    (h : session.memory.Keeps label after.memory) {fields : Entries Setting}
    (hdiffers : Differs past fields) {r : Result} {s : String} (hs : r.sql = .text s) :
    Consults label past session fields
      ((after.keep r).1.remember label fields (after.keep r).2) (.ok ((after.keep r).2, s)) := by
  have hresult := getElem?_keep after r
  have hrenews : session.memory.Renews label fields (after.keep r).2
      ((after.keep r).1.remember label fields (after.keep r).2).memory := {
    new := h.results.length_le
    result := ⟨r, s, hresult, hs⟩
    slot := lookup_remember_self _ _ _ _
    results := h.results.trans (List.prefix_append _ _)
    options := h.options
    grown := h.grown }
  exact .anew hrenews hdiffers ⟨r, hresult, hs⟩

variable (hvalues : Value.AvoidsEach label false pattern.values)

include hvalues

private theorem evaluateNow_cases (hgrown : session.grown = []) {options : Options}
    (hoptions : options.Avoids label) :
    session.memory.Keeps label
        (session.evaluateNow (.fragment (pattern.fragment label)) options).1.memory ∧
      ((∃ cause, (session.evaluateNow (.fragment (pattern.fragment label)) options).2 =
          .error cause) ∨
        ∃ r s, (session.evaluateNow (.fragment (pattern.fragment label)) options).2 =
          .ok (.result r) ∧ r.sql = .text s) := by
  have htarget : (Value.fragment (pattern.fragment label)).Avoids label false := ⟨nofun, hvalues⟩
  have hkeeps := keeps_evaluateNow hgrown htarget hoptions
  refine ⟨hkeeps, ?_⟩
  unfold evaluateNow at hkeeps ⊢
  cases hcontext : options.normalize with
  | error cause => exact .inl ⟨cause, rfl⟩
  | ok context =>
    simp only [hcontext] at hkeeps
    cases hanswer : (resolve session.environment context 0 (pattern.fragment label)).answer with
    | error cause =>
      left
      refine ⟨cause, ?_⟩
      show Except.map _ (resolve session.environment context 0 (pattern.fragment label)).answer = _
      rw [hanswer]
      rfl
    | ok rendered =>
      right
      obtain ⟨r, s, rfl, hs⟩ := resolve_text hanswer
      refine ⟨r, s, ?_, hs⟩
      show Except.map _ (resolve session.environment context 0 (pattern.fragment label)).answer = _
      rw [hanswer]
      exact congrArg Except.ok (settle_of_still hkeeps.grown Rendered.apply (.result r))

private theorem renderTemplate_consults (h : session.Holds label past) {fields : Entries Setting}
    (hcontext : (Context.ofFields fields).Avoids label) :
    ∃ after answer, Consults label past session fields after answer ∧
      session.renderTemplate label (.fragment (pattern.fragment label)) fields =
        (after, answer.map fun (place, _) => .result place) := by
  rw [renderTemplate]
  rcases stored_cases h fields with
    ⟨hstored, hdiffers⟩ | ⟨hstored, hdiffers⟩ | ⟨latest, hlatest, halike, hstored⟩
  · rw [hstored]
    exact ⟨session, .error _, .failed _ (.refl h.grown) hdiffers, rfl⟩
  · have hoptions : (Options.mapping 0 fields).Avoids label := by
      intro context hnormalize
      cases hnormalize
      exact hcontext
    obtain ⟨hkeeps, hanswer⟩ := evaluateNow_cases hvalues h.grown hoptions
    rw [hstored]
    unfold evaluateAndKeep
    cases hnow : session.evaluateNow (.fragment (pattern.fragment label)) (.mapping 0 fields) with
    | mk after answer =>
      rw [hnow] at hkeeps hanswer
      rcases hanswer with ⟨cause, rfl⟩ | ⟨r, s, rfl, hs⟩
      · exact ⟨after, .error cause, .failed cause hkeeps hdiffers, rfl⟩
      · exact ⟨_, .ok _, consults_keep hkeeps hdiffers hs, rfl⟩
  · obtain ⟨r, s, hresult, hs⟩ := h.results latest (List.mem_of_mem_head? hlatest)
    rw [hstored]
    exact ⟨session, .ok _, .again hlatest halike ⟨r, hresult, hs⟩, rfl⟩

private theorem observe_consults (h : session.Holds label past) :
    ∃ after answer, Consults label past session (inlinedFields []) after answer ∧
      session.observe (plainText session.environment (.fragment (pattern.fragment label))) =
        (after, answer.map (·.2)) := by
  -- The trace is noted from a session that has taken up nothing, as this one has not.
  have hstart : ({ session with grown := [] } : Session) = session := by
    rw [← h.grown]
  rcases stored_cases h (inlinedFields []) with
    ⟨hstored, hdiffers⟩ | ⟨hstored, hdiffers⟩ | ⟨latest, hlatest, halike, hstored⟩
  · have herror : session.environment.remembered label = .error .badNumber := by
      simp [environment, hstored, Except.map]
    rw [plainText_error herror, observe_silent, hstart]
    exact ⟨session, .error _, .failed _ (.refl h.grown) hdiffers, rfl⟩
  · have htrace : ∀ event ∈ (resolve session.environment .inlined 0
        (pattern.fragment label)).trace, event.Avoids label :=
      avoids_of_mem_trace (show (pattern.fragment label).Avoids label from hvalues)
        Context.avoids_inlined 0
    have hkeeps := keeps_witness h.grown htrace
    cases hanswer : (resolve session.environment .inlined 0 (pattern.fragment label)).answer with
    | error cause =>
      rw [observe_written_error hstored hanswer, hstart]
      exact ⟨_, .error cause, .failed cause hkeeps hdiffers, rfl⟩
    | ok rendered =>
      obtain ⟨r, s, rfl, hs⟩ := resolve_text hanswer
      rw [observe_written_text hstored hanswer hs rfl (by rw [hstart]; exact hkeeps.grown), hstart]
      exact ⟨_, .ok _, consults_keep hkeeps hdiffers hs, rfl⟩
  · obtain ⟨r, s, hresult, hs⟩ := h.results latest (List.mem_of_mem_head? hlatest)
    have hsome : session.environment.remembered label = .ok (some r.sql) := by
      simp [environment, hstored, Except.map, hresult]
    rw [plainText_remembered hsome hs, observe_silent, hstart]
    exact ⟨session, .ok _, .again hlatest halike ⟨r, hresult, hs⟩, rfl⟩

omit hvalues

/-! ## Calls -/

/-- How a call of a template ends. It fails, it hands out what is remembered, or it hands out a new
result, which is remembered from then on. -/
inductive Ends (label : Label) (pattern : Pattern) (past : List Slot) (session : Session)
    (call : Call) : Prop
  | failed {cause : Failure}
    (hreply : (session.perform (call.step (pattern.fragment label))).2 = .error cause)
    (hkeeps : session.memory.Keeps label
      (session.perform (call.step (pattern.fragment label))).1.memory)
    (hdiffers : ∀ fields, call.fields = .ok fields → Differs past fields)
  | again {latest : Slot} (hlatest : past.head? = some latest) {fields : Entries Setting}
    (hfields : call.fields = .ok fields) (halike : latest.fields.Alike fields)
    (hout : call.HandsOut session label pattern latest.result)
    (hkeeps : session.memory.Keeps label
      (session.perform (call.step (pattern.fragment label))).1.memory)
  | anew {fields : Entries Setting} (hfields : call.fields = .ok fields) {place : Nat}
    (hdiffers : Differs past fields) (hout : call.HandsOut session label pattern place)
    (hrenews : session.memory.Renews label fields place
      (session.perform (call.step (pattern.fragment label))).1.memory)

private theorem ends_of_consults (h : session.Holds label past) {call : Call}
    {fields : Entries Setting} (hfields : call.fields = .ok fields) {after : Session}
    {answer : Except Failure (Nat × String)}
    (hconsults : Consults label past session fields after answer)
    (hmemory : (session.perform (call.step (pattern.fragment label))).1.memory = after.memory)
    (hfails : ∀ cause, answer = .error cause →
      (session.perform (call.step (pattern.fragment label))).2 = .error cause)
    (hout : ∀ place s r kept, answer = .ok (place, s) → after.results[place]? = some r →
      r.sql = .text s → after.slots.lookup label = some ⟨kept, place⟩ →
      call.HandsOut session label pattern place) :
    Ends label pattern past session call := by
  have hresult : ∀ place s, answer = .ok (place, s) → call.HandsOut session label pattern place := by
    rintro place s rfl
    obtain ⟨r, kept, hresult, hs, hslot⟩ := hconsults.remembered h
    exact hout place s r kept rfl hresult hs hslot
  cases hconsults with
  | failed cause hkeeps hdiffers =>
    refine .failed (hfails cause rfl) ?_ ?_
    · rw [hmemory]
      exact hkeeps
    · intro other hother
      rw [hfields] at hother
      cases hother
      exact hdiffers
  | again hlatest halike _ =>
    refine .again hlatest hfields halike (hresult _ _ rfl) ?_
    rw [hmemory]
    exact .refl h.grown
  | anew hrenews hdiffers _ =>
    refine .anew hfields hdiffers (hresult _ _ rfl) ?_
    rw [hmemory]
    exact hrenews

private theorem ends_of_own (h : session.Holds label past)
    (hvalues : Value.AvoidsEach label false pattern.values) {options : Options}
    {fields : Entries Setting} (hfields : options.fields = .ok fields)
    (hcontext : (Context.ofFields fields).Avoids label) :
    Ends label pattern past session (.own options) := by
  have hown : (Call.own options).fields = .ok fields := hfields
  obtain ⟨after, answer, hconsults, hrender⟩ := renderTemplate_consults hvalues h hcontext
  have hperform := perform_render session .own (.fragment (pattern.fragment label)) options
  rw [render_own hfields, hrender] at hperform
  apply ends_of_consults h hown hconsults
  · rw [Call.step, hperform]
    rfl
  · rintro cause rfl
    rw [Call.step, hperform]
    rfl
  · rintro place s r _ rfl hresult _ _
    have hhandout := handOut_result hresult
    unfold Call.HandsOut Call.step
    simp only [hperform, Except.map, hhandout]
    exact ⟨r, hresult, _, rfl, List.getLast?_concat⟩

private theorem ends_of_inlined (h : session.Holds label past)
    (hvalues : Value.AvoidsEach label false pattern.values) {options : Options}
    {fields : Entries Setting} (hfields : options.fields = .ok fields)
    (hcontext : (Context.ofFields (inlinedFields fields)).Avoids label) :
    Ends label pattern past session (.inlined options) := by
  have hinlined : (Call.inlined options).fields = .ok (inlinedFields fields) := by
    rw [Call.fields, hfields]
    rfl
  obtain ⟨after, answer, hconsults, hrender⟩ := renderTemplate_consults hvalues h hcontext
  have hperform := perform_render session .inlined (.fragment (pattern.fragment label)) options
  rw [render_inlined hfields, hrender] at hperform
  apply ends_of_consults h hinlined hconsults
  · rw [Call.step, hperform]
    rfl
  · rintro cause rfl
    rw [Call.step, hperform]
    rfl
  · rintro place s r kept rfl hresult _ hslot
    have hhandout := handOutText_result hresult
    unfold Call.HandsOut Call.step
    simp only [hperform, Except.map, hhandout]
    exact ⟨r, hresult, rfl, kept, hslot⟩

private theorem ends_of_written (h : session.Holds label past)
    (hvalues : Value.AvoidsEach label false pattern.values) :
    Ends label pattern past session .written := by
  obtain ⟨after, answer, hconsults, hobserve⟩ := observe_consults hvalues h
  have hperform := perform_render session .plainText (.fragment (pattern.fragment label)) .absent
  rw [render_written, hobserve] at hperform
  apply ends_of_consults h rfl hconsults
  · rw [Call.step, hperform]
    rfl
  · rintro cause rfl
    rw [Call.step, hperform]
    rfl
  · rintro place s r kept rfl hresult hs hslot
    unfold Call.HandsOut Call.step
    simp only [hperform]
    refine ⟨r, hresult, ?_, kept, hslot⟩
    rw [hs]
    rfl

theorem ends (h : session.Holds label past)
    (hvalues : Value.AvoidsEach label false pattern.values) {call : Call}
    (havoids : call.Avoids label) : Ends label pattern past session call := by
  cases hfields : call.fields with
  | error cause =>
    have hperform : session.perform (call.step (pattern.fragment label)) =
        (session.skip, .error cause) := perform_call_error hfields
    refine .failed (congrArg Prod.snd hperform) ?_ ?_
    · rw [hperform]
      exact .refl h.grown
    · intro fields hother
      rw [hfields] at hother
      cases hother
  | ok fields =>
    have hcontext := havoids fields hfields
    cases call with
    | own options => exact ends_of_own h hvalues hfields hcontext
    | inlined options =>
      obtain ⟨given, hgiven, rfl⟩ := map_eq_ok.1 hfields
      exact ends_of_inlined h hvalues hgiven hcontext
    | written => exact ends_of_written h hvalues

end Session

end SqlFragments
