import SqlFragments.Proofs.Session.Discerns
import SqlFragments.Proofs.Session.Memory
import SqlFragments.Proofs.Session.Reply
import SqlFragments.Proofs.Value.Change

/-!
# Calls of a template

A template is rendered by its own render, as text, or written out, any number of times and under
any options. In between other things happen that leave memory as it is: options are changed, names
are given, results are compared.
-/

namespace SqlFragments

/-- A render of a template that goes by its memory. -/
inductive Call
  | own (options : Options)
  | inlined (options : Options)
  | written

namespace Call

def step (call : Call) (f : Fragment) : Step :=
  match call with
  | own options => .render .own (.fragment f) options
  | inlined options => .render .inlined (.fragment f) options
  | written => .render .plainText (.fragment f) .absent

def fields : Call → Except Failure (Entries Setting)
  | own options => options.fields
  | inlined options => options.fields.map inlinedFields
  | written => .ok (inlinedFields [])

/-- What rendering the template at this moment gives, when its memory is left out. -/
def fresh (call : Call) (session : Session) (f : Fragment) : Except Failure Rendered :=
  match call with
  | own options => (session.evaluateNow (.fragment f) options).2
  | inlined options => do
    let fields ← options.fields
    (session.evaluateNow (.fragment f) (.mapping 0 (inlinedFields fields))).2
  | written => (session.evaluateNow (.fragment f) (.mapping 0 (inlinedFields []))).2

/-- A reply to a call that tells of this result: a result that is the same or equal, or its
text. -/
def Tells (call : Call) (r : Result) (reply : Reply) : Prop :=
  match call with
  | own _ => ∃ r' place, reply = .result r' place ∧ r'.Same r
  | _ => reply = .plain r.sql

def Meets (call : Call) (expected : Except Failure Rendered) (answer : Except Failure Reply) :
    Prop :=
  (∃ r reply, expected = .ok (.result r) ∧ answer = .ok reply ∧ call.Tells r reply) ∨
  ∃ cause, expected = .error cause ∧ answer = .error cause

/-- The answer to a call is that of rendering the template at this moment. -/
def Transparent (call : Call) (session : Session) (f : Fragment) : Prop :=
  call.Meets (call.fresh session f) (session.perform (call.step f)).2

def Admitted (admitted : Entries Setting → Prop) (call : Call) : Prop :=
  ∀ fields, call.fields = .ok fields → admitted fields

end Call

namespace Session

/-- The sessions in which nothing is remembered at first, then a template is called under admitted
settings, and other steps in between leave memory as it is. -/
inductive Calling (hostMinutes : Rat) (f : Fragment) (admitted : Entries Setting → Prop) :
    Session → Prop
  | start {session : Session} (hhost : session.hostMinutes = hostMinutes)
    (hslots : session.slots = []) : Calling hostMinutes f admitted session
  | call {session : Session} (before : Calling hostMinutes f admitted session) (call : Call)
    (hadmitted : call.Admitted admitted) :
    Calling hostMinutes f admitted (session.perform (call.step f)).1
  | other {session : Session} (before : Calling hostMinutes f admitted session) (step : Step)
    (hspares : session.Spares (session.perform step).1) :
    Calling hostMinutes f admitted (session.perform step).1

/-! ## Renders as calls -/

section

variable {session : Session} {label : Label} {pattern : Pattern}

theorem spares_perform_render (session : Session) (manner : Manner) (target : Value)
    (options : Options) :
    (session.render manner target options).1.Spares
      (session.perform (.render manner target options)).1 := by
  rw [perform_render]
  exact ⟨rfl, rfl, fun _ _ hr => hr⟩

theorem perform_render_reply (session : Session) (manner : Manner) (target : Value)
    (options : Options) :
    (session.perform (.render manner target options)).2 =
      (session.render manner target options).2.map (·.1) := by
  rw [perform_render]

theorem handOut_result {place : Nat} {r : Result} (hplace : session.results[place]? = some r) :
    (session.handOut (.ok (.result place))).2 =
      .ok (.result r (session.firstHandout? place), .result place) := by
  rw [handOut_answer, resultAt_eq_ok hplace]
  rfl

theorem handOutText_result {place : Nat} {r : Result}
    (hplace : session.results[place]? = some r) :
    (session.handOutText (.ok (.result place))).2 = .ok (handOutValue r.sql) := by
  rw [handOutText_answer, resultAt_eq_ok hplace]
  rfl

theorem render_own {options : Options} {fields : Entries Setting}
    (hfields : options.fields = .ok fields) :
    session.render .own (.fragment (pattern.fragment label)) options =
      (session.renderTemplate label (.fragment (pattern.fragment label)) fields).1.handOut
        (session.renderTemplate label (.fragment (pattern.fragment label)) fields).2 := by
  simp only [render, renderFragment, Pattern.fragment, hfields]

theorem render_inlined {options : Options} {fields : Entries Setting}
    (hfields : options.fields = .ok fields) :
    session.render .inlined (.fragment (pattern.fragment label)) options =
      (session.renderTemplate label (.fragment (pattern.fragment label))
          (inlinedFields fields)).1.handOutText
        (session.renderTemplate label (.fragment (pattern.fragment label))
          (inlinedFields fields)).2 := by
  have hhides : (pattern.fragment label).hides "to_string" = false := rfl
  simp only [render, renderInlined, hhides, hfields, Bool.false_eq_true, if_false]
  rfl

theorem perform_call_error {call : Call} {cause : Failure} (herror : call.fields = .error cause) :
    session.perform (call.step (pattern.fragment label)) = (session.skip, .error cause) := by
  cases call with
  | own options =>
    have hfields : options.fields = .error cause := herror
    have hrender : session.render .own (.fragment (pattern.fragment label)) options =
        (session, .error cause) := by
      simp only [render, renderFragment, Pattern.fragment, hfields]
      rfl
    rw [Call.step, perform_render, hrender]
    rfl
  | inlined options =>
    have hfields : options.fields = .error cause := by
      cases h : options.fields with
      | error other =>
        rw [Call.fields, h] at herror
        cases herror
        rfl
      | ok fields =>
        rw [Call.fields, h] at herror
        cases herror
    have hhides : (pattern.fragment label).hides "to_string" = false := rfl
    have hrender : session.render .inlined (.fragment (pattern.fragment label)) options =
        (session, .error cause) := by
      simp only [render, renderInlined, hhides, hfields, Bool.false_eq_true, if_false]
      rfl
    rw [Call.step, perform_render, hrender]
    rfl
  | written => cases herror

theorem render_written (session : Session) (f : Fragment) :
    session.render .plainText (.fragment f) .absent =
      ((session.observe (plainText session.environment (.fragment f))).1,
        (session.observe (plainText session.environment (.fragment f))).2.map fun s =>
          handOutValue (.text s)) := rfl

theorem observe_silent {answer : Except Failure String} :
    session.observe (.ofExcept answer) = ({ session with grown := [] }, answer) := rfl

theorem plainText_remembered {env : Environment} {sql : Value} {s : String}
    (hsome : env.remembered label = .ok (some sql)) (hs : sql = .text s) :
    plainText env (.fragment (pattern.fragment label)) = .ofExcept (.ok s) := by
  simp only [plainText, Pattern.fragment, Environment.inline, hsome, hs]
  rfl

theorem plainText_error {env : Environment} {cause : Failure}
    (herror : env.remembered label = .error cause) :
    plainText env (.fragment (pattern.fragment label)) = .ofExcept (.error cause) := by
  simp only [plainText, Pattern.fragment, Environment.inline, herror]
  rfl

end

/-! ## Changes of options -/

/-- A mapping stands in nothing that is remembered and in no result. -/
structure Lacks (label : Label) (session : Session) : Prop where
  slots : ∀ slot ∈ session.slots, ∀ field ∈ slot.2.fields, field.2.toValue.Lacks label
  results : ∀ r ∈ session.results, r.sql.Lacks label ∧ Value.LacksEach label r.bindings ∧
    r.method.Lacks label ∧ Value.LacksFields label r.hooks

variable {label : Label} {entries : List (Value × Value)}

private theorem apply_setting {setting : Setting} (h : setting.toValue.Lacks label) :
    setting.apply (.entries label entries) = setting := by
  cases setting with
  | value v => exact congrArg Setting.value (Value.apply_of_lacks v h)
  | literalEscaper escaper => rfl
  | identifierEscaper escaper => rfl

private theorem map_apply_of_lacks (vs : List Value) (h : Value.LacksEach label vs) :
    vs.map (·.apply (.entries label entries)) = vs := by
  induction vs with
  | nil => rfl
  | cons v rest ih => rw [List.map_cons, Value.apply_of_lacks v h.1, ih h.2]

private theorem map_hooks_of_lacks (hooks : List (String × Value))
    (h : Value.LacksFields label hooks) :
    (hooks.map fun (name, v) => (name, v.apply (.entries label entries))) = hooks := by
  induction hooks with
  | nil => rfl
  | cons hook rest ih =>
    obtain ⟨name, v⟩ := hook
    rw [List.map_cons, ih h.2]
    simp only [Value.apply_of_lacks v h.1]

private theorem apply_result {r : Result} (h : r.sql.Lacks label ∧
    Value.LacksEach label r.bindings ∧ r.method.Lacks label ∧ Value.LacksFields label r.hooks) :
    r.apply (.entries label entries) = r := by
  obtain ⟨hsql, hbindings, hmethod, hhooks⟩ := h
  rw [Result.apply, Value.apply_of_lacks _ hsql, map_apply_of_lacks _ hbindings,
    Value.apply_of_lacks _ hmethod, map_hooks_of_lacks _ hhooks]

private theorem map_eq_self {α : Type} {f : α → α} {as : List α} (h : ∀ a ∈ as, f a = a) :
    as.map f = as :=
  (List.map_congr_left h).trans (List.map_id' as)

private theorem apply_slot {slot : Slot} (h : ∀ field ∈ slot.fields, field.2.toValue.Lacks label) :
    (slot.fields.map fun (key, setting) => (key, setting.apply (.entries label entries))) =
      slot.fields := by
  apply map_eq_self
  intro field hfield
  obtain ⟨key, setting⟩ := field
  simp only [apply_setting (h _ hfield)]

theorem spares_setEntries {session : Session} (h : session.Lacks label)
    (fields : Entries Setting) : session.Spares (session.setEntries label fields) := by
  have hresults : (session.setEntries label fields).results = session.results :=
    map_eq_self fun r hr => apply_result (h.results r hr)
  refine ⟨rfl, ?_, ?_⟩
  · apply map_eq_self
    intro slot hslot
    obtain ⟨l, slot⟩ := slot
    simp only [apply_slot (h.slots _ hslot)]
  · intro place r hr
    rwa [hresults]

private theorem spares_changeMapping {session after : Session} {name : String}
    {change : Entries Setting → Except Failure (Entries Setting)}
    (h : ∀ label fields, session.options.lookup name = some (.mapping label fields) →
      session.Lacks label) (hafter : session.changeMapping name change = .ok after) :
    session.Spares after := by
  unfold changeMapping at hafter
  split at hafter
  · cases hafter
  · next label fields hlookup =>
    obtain ⟨changed, _, hafter⟩ := Outcome.bind_eq_ok.1 hafter
    cases hafter
    exact spares_setEntries (h label fields hlookup) changed
  · cases hafter

private theorem spares_perform {session : Session} {step : Step}
    (hstep : step.isRender = false)
    (h : ∀ after reply, session.perform? step = .ok (after, reply) → session.Spares after) :
    session.Spares (session.perform step).1 := by
  cases hanswer : session.perform? step with
  | error cause =>
    rw [perform_error hstep hanswer]
    exact ⟨rfl, rfl, fun _ _ hr => hr⟩
  | ok answer =>
    obtain ⟨after, reply⟩ := answer
    rw [perform_ok hstep hanswer]
    obtain ⟨hhost, hslots, hresults⟩ := h after reply hanswer
    exact ⟨hhost, hslots, hresults⟩

theorem spares_setOption {session : Session} {name : String}
    (h : ∀ label fields, session.options.lookup name = some (.mapping label fields) →
      session.Lacks label) (key : String) (setting : Setting) :
    session.Spares (session.perform (.setOption name key setting)).1 := by
  refine spares_perform rfl ?_
  intro after reply hanswer
  obtain ⟨changed, hchange, hafter⟩ := Outcome.bind_eq_ok.1 hanswer
  cases hafter
  exact spares_changeMapping h hchange

theorem spares_removeOption {session : Session} {name : String}
    (h : ∀ label fields, session.options.lookup name = some (.mapping label fields) →
      session.Lacks label) (key : String) :
    session.Spares (session.perform (.removeOption name key)).1 := by
  refine spares_perform rfl ?_
  intro after reply hanswer
  obtain ⟨changed, hchange, hafter⟩ := Outcome.bind_eq_ok.1 hanswer
  cases hafter
  exact spares_changeMapping h hchange

end Session

end SqlFragments
