import SqlFragments.Proofs.Render.Preorder
import SqlFragments.Proofs.Render.Transcript

/-!
# Renders announced

A render announces each fragment that it comes to, in the order of the tree, under the settings that
it began with. Besides that it calls functions of the user and has separators take up what is put
behind them, as long as those functions render nothing and no fragment is to be written out.
-/

namespace SqlFragments

open Outcome

variable {α β : Type} {env : Environment} {context : Context} {fragments : List Fragment}

/-! ## Events -/

def Event.isRendering : Event → Bool
  | .rendering _ _ _ _ => true
  | _ => false

def Event.isCall : Event → Bool
  | .literalEscaped _ _ | .identifierEscaped _ | .leafRendered _ => true
  | _ => false

/-- What happens in a render of some fragments besides that they begin to render. -/
inductive Event.Aside (fragments : List Fragment) : Event → Prop
  | call {event : Event} (h : event.isCall = true) : Event.Aside fragments event
  | extended {members : List Value} {separator : Value} (h : .lines members separator ∈ fragments)
    (added : Value) : Event.Aside fragments (.extended separator added)

theorem Event.Aside.not_isRendering {event : Event} (h : event.Aside fragments) :
    event.isRendering = false := by
  cases h with
  | call h =>
    cases event with
    | rendering => cases h
    | _ => rfl
  | extended => rfl

def Outcome.Aside (fragments : List Fragment) (outcome : Outcome α) : Prop :=
  ∀ event ∈ outcome.trace, event.Aside fragments

/-- An outcome in which functions of the user may be called, and nothing else happens. -/
def Outcome.OnlyCalls (outcome : Outcome α) : Prop := ∀ event ∈ outcome.trace, event.isCall = true

namespace Outcome

theorem forall_trace_bind {P : Event → Prop} {x : Outcome α} {f : α → Outcome β}
    (hx : ∀ event ∈ x.trace, P event) (hf : ∀ a, ∀ event ∈ (f a).trace, P event) :
    ∀ event ∈ (x >>= f).trace, P event := by
  cases h : x.answer with
  | error cause =>
    rw [trace_bind_error x f cause h]
    exact hx
  | ok a =>
    rw [trace_bind_ok x f a h]
    exact List.forall_mem_append.2 ⟨hx, hf a⟩

theorem bind_congr_of_ok {x : Outcome α} {f g : α → Outcome β}
    (h : ∀ a, x.answer = .ok a → f a = g a) : (x >>= f) = x >>= g := by
  show Outcome.bind x f = Outcome.bind x g
  unfold Outcome.bind
  cases hx : x.answer with
  | error cause => rfl
  | ok a => simp only [h a hx]

theorem Aside.of_silent {outcome : Outcome α} (h : outcome.trace = []) :
    outcome.Aside fragments := by
  intro event hevent
  rw [h] at hevent
  cases hevent

theorem Aside.ofExcept (answer : Except Failure α) : (ofExcept answer).Aside fragments :=
  .of_silent rfl

theorem Aside.pure (a : α) : (pure a : Outcome α).Aside fragments := .of_silent rfl

theorem Aside.bind {x : Outcome α} {f : α → Outcome β} (hx : x.Aside fragments)
    (hf : ∀ a, (f a).Aside fragments) : (x >>= f).Aside fragments :=
  forall_trace_bind hx hf

theorem OnlyCalls.aside {outcome : Outcome α} (h : outcome.OnlyCalls) : outcome.Aside fragments :=
  fun event hevent => .call (h event hevent)

theorem Aside.mapM {f : α → Outcome β} {as : List α} (h : ∀ a ∈ as, (f a).Aside fragments) :
    (as.mapM f).Aside fragments := by
  induction as with
  | nil => exact .pure _
  | cons a as ih =>
    rw [List.forall_mem_cons] at h
    rw [List.mapM_cons]
    exact h.1.bind fun b => (ih h.2).bind fun bs => .pure _

theorem Aside.filter_isRendering {outcome : Outcome α} (h : outcome.Aside fragments) :
    outcome.trace.filter Event.isRendering = [] :=
  List.filter_eq_nil_iff.2 fun event hevent => by simp [(h event hevent).not_isRendering]

end Outcome

/-! ## Trees and settings without fragments to write out -/

def Fragment.isBare : Fragment → Bool
  | .raw value => value.isPure
  | .parameter value => value.isPure
  | .parameterList values _ => Value.arePure values
  | _ => true

def Fragment.names : Fragment → List Value
  | .identifier name => [.text name]
  | .columnList columns _ => columns
  | _ => []

/-- Whether a change is one of a separator that takes up what is put behind it. -/
def Change.Grows (separator : Value) : Change → Prop
  | .members label _ => ∃ items, separator = .list label items
  | .bytes label _ => ∃ data, separator = .bytes (.changeable label) data
  | _ => False

def Fragment.keepsSeparator : Fragment → Bool
  | .lines _ separator => !separator.takesUp
  | _ => true

theorem Change.Grows.takesUp {separator : Value} {change : Change} (h : change.Grows separator) :
    separator.takesUp = true := by
  cases change with
  | members =>
    obtain ⟨_, rfl⟩ := h
    rfl
  | bytes =>
    obtain ⟨_, rfl⟩ := h
    rfl
  | entries | field => cases h

theorem Fragment.not_grows (h : ∀ f ∈ fragments, f.keepsSeparator = true) {members : List Value}
    {separator : Value} (hlines : .lines members separator ∈ fragments) (change : Change) :
    ¬change.Grows separator := by
  intro hchange
  have hkeeps : (!separator.takesUp) = true := h _ hlines
  rw [hchange.takesUp] at hkeeps
  cases hkeeps

/-- Settings that leave renders of some fragments undisturbed: the functions render nothing, and in
the time zone and the method stand neither fragments nor what a separator changes. -/
structure Context.Quiet (env : Environment) (fragments : List Fragment) (context : Context) :
    Prop where
  timezone : context.timezone.isPure = true
  method : context.method.isPure = true
  written {value : Value} (h : value.isPure = true) :
    (context.escape.write env value context.timezone fun _ => json env value).OnlyCalls
  named {f : Fragment} (hf : f ∈ fragments) :
    ∀ name ∈ f.names, (context.escapeId.write env name).OnlyCalls
  grown {members : List Value} {separator : Value} (h : .lines members separator ∈ fragments)
    {change : Change} (hchange : change.Grows separator) :
    context.timezone.apply change = context.timezone ∧ context.method.apply change = context.method

/-! ## Walks that announce -/

def Visit.announcement (visited : Visit) : Event :=
  visited.context.announcement visited.fragment.kindName

/-- A walk that announces what it visits: that are some fragments, or as many of them as come before
it stops. -/
structure Walk.Announces (fragments : List Fragment) (w : Walk α) (outcome : Outcome α)
    (rendered : List Fragment) (Stops : Failure → List Fragment → Prop) : Prop where
  outcome? : w.outcome? = some outcome
  announced : outcome.trace.filter Event.isRendering = w.visits.map Visit.announcement
  aside : ∀ event ∈ outcome.trace, event.isRendering = false → event.Aside fragments
  ok {a : α} (h : outcome.answer = .ok a) : w.visits.map Visit.fragment = rendered
  error {cause : Failure} (h : outcome.answer = .error cause) :
    Stops cause (w.visits.map Visit.fragment)

namespace Walk.Announces

variable {Stops : Failure → List Fragment → Prop}

theorem ofOutcome {outcome : Outcome α} (haside : outcome.Aside fragments) :
    (Walk.ofOutcome outcome).Announces fragments outcome [] fun cause rendered =>
      outcome.answer = .error cause ∧ rendered = [] where
  outcome? := rfl
  announced := haside.filter_isRendering
  aside event hevent _ := haside event hevent
  ok _ := rfl
  error h := ⟨h, rfl⟩

theorem mono {w : Walk α} {outcome : Outcome α} {rendered : List Fragment}
    {Stops' : Failure → List Fragment → Prop} (h : w.Announces fragments outcome rendered Stops)
    (hstops : ∀ cause rendered, outcome.answer = .error cause → Stops cause rendered →
      Stops' cause rendered) : w.Announces fragments outcome rendered Stops' :=
  { h with error := fun hcause => hstops _ _ hcause (h.error hcause) }

protected theorem bind {first : Walk α} {next : α → Walk β} {outcome : Outcome α}
    {later : α → Outcome β} {front back : List Fragment}
    {Stops₁ : Failure → List Fragment → Prop} {Stops₂ : α → Failure → List Fragment → Prop}
    (hfirst : first.Announces fragments outcome front Stops₁)
    (hnext : ∀ a, outcome.answer = .ok a →
      (next a).Announces fragments (later a) back (Stops₂ a))
    (hstops₁ : ∀ cause rendered, outcome.answer = .error cause → Stops₁ cause rendered →
      Stops cause rendered)
    (hstops₂ : ∀ a cause rendered, outcome.answer = .ok a → Stops₂ a cause rendered →
      Stops cause (front ++ rendered)) :
    (first >>= next).Announces fragments (outcome >>= later) (front ++ back) Stops := by
  have houtcome : (first >>= next).outcome? = some (outcome >>= later) :=
    Walk.outcome?_bind hfirst.outcome? fun a ha => (hnext a ha).outcome?
  cases hanswer : outcome.answer with
  | error cause =>
    have htrace := trace_bind_error outcome later cause hanswer
    have hvisits : (first >>= next).visits = first.visits :=
      Walk.visits_bind_error hfirst.outcome? hanswer
    have hfails : (outcome >>= later).answer = .error cause := answer_bind_eq_error.2 (.inl hanswer)
    refine ⟨houtcome, ?_, ?_, ?_, ?_⟩
    · rw [htrace, hvisits]
      exact hfirst.announced
    · rw [htrace]
      exact hfirst.aside
    · intro b hb
      rw [hfails] at hb
      cases hb
    · intro cause' hcause
      rw [hfails] at hcause
      cases hcause
      rw [hvisits]
      exact hstops₁ _ _ hanswer (hfirst.error hanswer)
  | ok a =>
    have hlater := hnext a hanswer
    have htrace := trace_bind_ok outcome later a hanswer
    have hvisits : (first >>= next).visits = first.visits ++ (next a).visits :=
      Walk.visits_bind_ok hfirst.outcome? hanswer
    have hends : (outcome >>= later).answer = (later a).answer := by
      rw [answer_bind, hanswer]
      rfl
    refine ⟨houtcome, ?_, ?_, ?_, ?_⟩
    · rw [htrace, hvisits, List.filter_append, List.map_append, hfirst.announced, hlater.announced]
    · rw [htrace, List.forall_mem_append]
      exact ⟨hfirst.aside, hlater.aside⟩
    · intro b hb
      rw [hends] at hb
      rw [hvisits, List.map_append, hfirst.ok hanswer, hlater.ok hb]
    · intro cause hcause
      rw [hends] at hcause
      rw [hvisits, List.map_append, hfirst.ok hanswer]
      exact hstops₂ a _ _ hanswer (hlater.error hcause)

end Walk.Announces

/-! ## Parts evaluated one after another -/

/-- How a render with these parts stops: a fragment among them does, when the parts in front of it
are done, or it fails by itself. -/
inductive Interrupted (env : Environment) (context : Context) (parts : List Value)
    (render : (Value → Outcome Rendered) → Outcome α) : Failure → List Fragment → Prop
  | inside {g : Fragment} {front back : List Value} {cause : Failure} {rendered : List Fragment}
    (hparts : parts = front ++ .fragment g :: back)
    (hfront : ∀ value ∈ front, value.Succeeds env context)
    (hg : g.Stops env context 0 cause rendered) :
    Interrupted env context parts render cause (front.flatMap (Value.preorder 0) ++ rendered)
  | itself {front back : List Value} {cause : Failure} (hparts : parts = front ++ back)
    (hfront : ∀ value ∈ front, value.Succeeds env context)
    (hself : FailsAfter env context front cause render) :
    Interrupted env context parts render cause (front.flatMap (Value.preorder 0))

namespace Interrupted

variable {parts : List Value} {render : (Value → Outcome Rendered) → Outcome α}
  {later : (Value → Outcome Rendered) → Outcome β} {cause : Failure} {rendered : List Fragment}

theorem mono (h : Interrupted env context parts render cause rendered)
    (hlater : ∀ evaluate, (render evaluate).answer = .error cause →
      (later evaluate).answer = .error cause) :
    Interrupted env context parts later cause rendered := by
  cases h with
  | inside hparts hfront hg => exact .inside hparts hfront hg
  | itself hparts hfront hself =>
    exact .itself hparts hfront fun evaluate h => hlater evaluate (hself evaluate h)

theorem cons {value : Value} (hvalue : value.Succeeds env context)
    (h : Interrupted env context parts render cause rendered)
    (hlater : ∀ evaluate' : Value → Outcome Rendered, evaluate' value = evaluate env context value →
      (render evaluate').answer = .error cause → (later evaluate').answer = .error cause) :
    Interrupted env context (value :: parts) later cause (value.preorder 0 ++ rendered) := by
  cases h with
  | @inside g front back _ rendered hparts hfront hg =>
    rw [← List.append_assoc, ← List.flatMap_cons]
    exact .inside (congrArg (value :: ·) hparts) (List.forall_mem_cons.2 ⟨hvalue, hfront⟩) hg
  | @itself front back _ hparts hfront hself =>
    rw [← List.flatMap_cons]
    refine .itself (congrArg (value :: ·) hparts) (List.forall_mem_cons.2 ⟨hvalue, hfront⟩) ?_
    intro evaluate h
    apply hlater evaluate (h value fun _ _ => List.mem_cons_self)
    exact hself evaluate fun other hother =>
      h other fun f hf => List.mem_cons_of_mem value (hother f hf)

theorem first (h : ∀ evaluate, (render evaluate).answer = .error cause) :
    Interrupted env context parts render cause [] :=
  .itself (List.nil_append parts).symm (fun _ h => by cases h) fun evaluate _ => h evaluate

theorem head {value : Value} (hstops : value.Stops env context cause rendered)
    (hfails : (evaluate env context value).answer = .error cause)
    (hrender : ∀ evaluate : Value → Outcome Rendered, (evaluate value).answer = .error cause →
      (render evaluate).answer = .error cause) :
    Interrupted env context (value :: parts) render cause rendered := by
  rcases value.fragment_or_ne with ⟨g, rfl⟩ | hne
  · exact .inside (List.nil_append _).symm (fun _ h => by cases h) hstops
  · rw [(Value.stops_of_ne_fragment hne).1 hstops]
    refine .itself (List.nil_append _).symm (fun _ h => by cases h) fun evaluate h => ?_
    apply hrender
    rw [h value fun f hf => absurd hf (hne f), hfails]

end Interrupted

structure Walk.Traces (env : Environment) (context : Context) (fragments : List Fragment)
    (w : Walk α) (parts : List Value) (render : (Value → Outcome Rendered) → Outcome α) :
    Prop where
  announces : w.Announces fragments (render (evaluate env context))
    (parts.flatMap (Value.preorder 0)) (Interrupted env context parts render)
  succeeds {a : α} (h : (render (evaluate env context)).answer = .ok a) :
    ∀ value ∈ parts, value.Succeeds env context
  congr (evaluate' : Value → Outcome Rendered)
    (h : ∀ value ∈ parts, evaluate' value = evaluate env context value) :
    render evaluate' = render (evaluate env context)

namespace Walk.Traces

theorem ofOutcome {outcome : Outcome α} (haside : outcome.Aside fragments) :
    (Walk.ofOutcome outcome).Traces env context fragments [] fun _ => outcome where
  announces := by
    apply (Walk.Announces.ofOutcome haside).mono
    rintro cause _ hcause ⟨-, rfl⟩
    exact .first fun _ => hcause
  succeeds _ _ h := by cases h
  congr _ _ := rfl

theorem ofOutcome_bind {outcome : Outcome α} {next : α → Walk β} {parts : List Value}
    {later : (Value → Outcome Rendered) → α → Outcome β} (haside : outcome.Aside fragments)
    (hnext : ∀ a, outcome.answer = .ok a →
      (next a).Traces env context fragments parts fun evaluate => later evaluate a) :
    (Walk.ofOutcome outcome >>= next).Traces env context fragments parts fun evaluate =>
      outcome >>= later evaluate where
  announces := by
    refine Walk.Announces.bind (.ofOutcome haside) (fun a ha => (hnext a ha).announces) ?_ ?_
    · rintro cause _ - ⟨hcause, rfl⟩
      exact .first fun _ => answer_bind_eq_error.2 (.inl hcause)
    · intro a cause rendered ha hstops
      exact hstops.mono fun _ hcause => answer_bind_eq_error.2 (.inr ⟨a, ha, hcause⟩)
  succeeds h := by
    obtain ⟨a, ha, hb⟩ := answer_bind_eq_ok.1 h
    exact (hnext a ha).succeeds hb
  congr evaluate' h := bind_congr_of_ok fun a ha => (hnext a ha).congr evaluate' h

theorem evaluate_bind {value : Value} {first : Walk Rendered} {next : Rendered → Walk β}
    {parts : List Value} {later : (Value → Outcome Rendered) → Rendered → Outcome β}
    (hfirst : first.Announces fragments (evaluate env context value) (value.preorder 0)
      fun cause rendered => value.Stops env context cause rendered)
    (hnext : ∀ a, (evaluate env context value).answer = .ok a →
      (next a).Traces env context fragments parts fun evaluate => later evaluate a) :
    (first >>= next).Traces env context fragments (value :: parts) fun evaluate =>
      evaluate value >>= later evaluate where
  announces := by
    rw [List.flatMap_cons]
    refine hfirst.bind (fun a ha => (hnext a ha).announces) ?_ ?_
    · intro cause rendered hcause hstops
      exact .head hstops hcause fun _ h => answer_bind_eq_error.2 (.inl h)
    · intro a cause rendered ha hstops
      refine .cons ⟨a, ha⟩ hstops fun evaluate hevaluate hcause => ?_
      rw [← hevaluate] at ha
      exact answer_bind_eq_error.2 (.inr ⟨a, ha, hcause⟩)
  succeeds h := by
    obtain ⟨a, ha, hb⟩ := answer_bind_eq_ok.1 h
    exact List.forall_mem_cons.2 ⟨⟨a, ha⟩, (hnext a ha).succeeds hb⟩
  congr evaluate' h := by
    rw [List.forall_mem_cons] at h
    rw [h.1]
    exact bind_congr_of_ok fun a ha => (hnext a ha).congr evaluate' h.2

theorem bind_ofOutcome {w : Walk α} {parts : List Value}
    {render : (Value → Outcome Rendered) → Outcome α} {last : α → Outcome β}
    (h : w.Traces env context fragments parts render) (hlast : ∀ a, (last a).Aside fragments) :
    (w >>= fun a => Walk.ofOutcome (last a)).Traces env context fragments parts fun evaluate =>
      render evaluate >>= last where
  announces := by
    rw [← List.append_nil (parts.flatMap (Value.preorder 0))]
    refine h.announces.bind (fun a _ => .ofOutcome (hlast a)) ?_ ?_
    · intro cause rendered _ hstops
      exact hstops.mono fun _ hcause => answer_bind_eq_error.2 (.inl hcause)
    · rintro a cause _ ha ⟨hcause, rfl⟩
      rw [List.append_nil]
      refine .itself (List.append_nil parts).symm (h.succeeds ha) fun evaluate hevaluate => ?_
      rw [h.congr evaluate fun value hvalue => hevaluate value fun _ _ => hvalue]
      exact answer_bind_eq_error.2 (.inr ⟨a, ha, hcause⟩)
  succeeds hb := by
    obtain ⟨a, ha, _⟩ := answer_bind_eq_ok.1 hb
    exact h.succeeds ha
  congr evaluate' hevaluate := by rw [h.congr evaluate' hevaluate]

end Walk.Traces

/-! ## One render -/

private theorem aside_lengthen {members : List Value} {separator : Value}
    (h : .lines members separator ∈ fragments) (isLast : Bool) (sql line : Value) :
    (lengthen separator isLast sql line).Aside fragments := by
  have hextend : ∀ sql added, (extendLines separator sql added).Aside fragments := by
    intro sql added
    rw [extendLines]
    apply Aside.bind (.ofExcept _)
    intro extended
    split
    · apply Aside.bind
      · intro event hevent
        rw [List.mem_singleton.1 hevent]
        exact .extended h added
      · exact fun _ => .pure _
    · exact .pure _
  rw [lengthen]
  split
  · rw [appendLine]
    apply Aside.bind (hextend _ _)
    intro extended
    dsimp only
    split
    · exact Aside.bind (.ofExcept _) fun _ => hextend _ _
    · exact Aside.bind (.pure _) fun _ => hextend _ _
  · exact .pure _

section

variable (hquiet : context.Quiet env fragments)

include hquiet

private theorem aside_bindValue {value : Value} (h : value.isPure = true) :
    (context.bind env value fun _ => json env value).Aside fragments := by
  rw [Context.bind]
  split
  · exact .pure _
  · exact (hquiet.written h).aside.bind fun _ => .pure _

private theorem aside_renderList {separator : Value} {values : List Value}
    (h : Value.arePure values = true) :
    (renderList env context separator values).Aside fragments := by
  have hvalues : ∀ value ∈ values, value.isPure = true := by
    induction values with
    | nil => exact fun _ hvalue => by cases hvalue
    | cons value rest ih =>
      rw [Value.arePure, Bool.and_eq_true] at h
      exact List.forall_mem_cons.2 ⟨h.1, ih h.2⟩
  rw [renderList]
  split
  · exact Aside.bind (.ofExcept _) fun _ => .pure _
  · rw [literalEach_eq_mapM]
    apply Aside.bind (.ofExcept _)
    intro _
    apply Aside.bind (.mapM fun value hvalue => (hquiet.written (hvalues value hvalue)).aside)
    intro pieces
    exact Aside.bind (.ofExcept _) fun _ => .pure _

private theorem aside_evaluate {target : Value} (hne : ∀ f, target ≠ .fragment f) :
    (evaluate env context target).Aside fragments := by
  cases target with
  | null => exact .pure _
  | text s =>
    rw [evaluate]
    split
    · exact .pure _
    · split
      · have hpure : (Value.text s).isPure = true := rfl
        exact (aside_bindValue hquiet hpure).bind fun _ => .pure _
      · exact .ofExcept _
  | fragment f => exact absurd rfl (hne f)
  | _ => exact .ofExcept _

end

section

variable {evaluate' : Value → Walk Rendered}

def Walk.AnnouncesValue (env : Environment) (context : Context) (fragments : List Fragment)
    (w : Walk Rendered) (value : Value) : Prop :=
  w.Announces fragments (evaluate env context value) (value.preorder 0) fun cause rendered =>
    value.Stops env context cause rendered

private theorem traces_valuesBy {values : List Value}
    (h : ∀ value ∈ values.map Value.promoted,
      (evaluate' value).AnnouncesValue env context fragments value) :
    (valuesBy evaluate' values).Traces env context fragments (values.map Value.promoted)
      fun evaluate => valuesBy evaluate values := by
  induction values with
  | nil => exact .ofOutcome (.pure _)
  | cons value rest ih =>
    rw [List.map_cons, List.forall_mem_cons] at h
    apply Walk.Traces.evaluate_bind h.1
    intro rendered _
    exact (ih h.2).bind_ofOutcome fun others => .pure _

private theorem traces_linesBy {members : List Value} {separator : Value} {all : List Value}
    (hlines : .lines all separator ∈ fragments)
    (h : ∀ member ∈ members, (evaluate' member).AnnouncesValue env context fragments member)
    (sql : Value) (bindings : List Value) :
    (linesBy Walk.ofOutcome evaluate' separator sql bindings members).Traces env context fragments
      members fun evaluate => linesBy id evaluate separator sql bindings members := by
  induction members generalizing sql bindings with
  | nil => exact .ofOutcome (.pure _)
  | cons member rest ih =>
    rw [List.forall_mem_cons] at h
    apply Walk.Traces.evaluate_bind h.1
    intro rendered _
    apply Walk.Traces.ofOutcome_bind (.ofExcept _)
    intro result _
    apply Walk.Traces.ofOutcome_bind (aside_lengthen hlines _ _ _)
    intro extended _
    exact ih h.2 _ _

private theorem traces_renderBy (hquiet : context.Quiet env fragments) {f : Fragment}
    (hf : f ∈ fragments) (hbare : f.isBare = true)
    (h : ∀ value ∈ f.parts, (evaluate' value).AnnouncesValue env context fragments value) :
    (f.renderBy Walk.ofOutcome evaluate' env context).Traces env context fragments f.parts
      fun evaluate => f.renderBy id evaluate env context := by
  cases f with
  | raw value =>
    refine .ofOutcome (Aside.bind (.of_silent ?_) fun _ => .pure _)
    cases value with
    | null => rfl
    | _ => exact (fixed_plainText hbare).trace_eq_nil env
  | identifier name =>
    have hname := hquiet.named hf (.text name) List.mem_cons_self
    exact .ofOutcome (hname.aside.bind fun _ => .pure _)
  | parameter value =>
    exact .ofOutcome ((aside_bindValue hquiet hbare).bind fun _ => .pure _)
  | parameterList values separator =>
    exact .ofOutcome ((aside_renderList hquiet hbare).bind fun _ => .pure _)
  | columnList columns separator =>
    refine .ofOutcome (Aside.bind (.ofExcept _) fun _ => ?_)
    apply Aside.bind (.mapM fun name hname => (hquiet.named hf name hname).aside)
    intro pieces
    exact Aside.bind (.ofExcept _) fun _ => .pure _
  | lines members separator =>
    exact (traces_linesBy hf h (.text "") []).bind_ofOutcome fun result => .pure _
  | clause strings value =>
    apply Walk.Traces.evaluate_bind (h value List.mem_cons_self)
    intro rendered _
    apply Walk.Traces.ofOutcome_bind (.ofExcept _)
    intro inner _
    apply Walk.Traces.ofOutcome_bind (.ofExcept _)
    intro result _
    exact .ofOutcome (.pure _)
  | template label form strings values =>
    have hwalk : (Fragment.template label form strings values).renderBy Walk.ofOutcome evaluate' env
        context = (do
          let rendered ← valuesBy evaluate' values
          Walk.ofOutcome do
            let result ← Outcome.ofExcept
              (compose strings (rendered.map Rendered.toResult) context)
            pure (.result result)) := by
      simp only [Walk.ofOutcome_bind]
      rfl
    rw [hwalk]
    exact (traces_valuesBy h).bind_ofOutcome fun rendered =>
      Aside.bind (.ofExcept _) fun _ => .pure _
  | leaf label form text bindings assigned =>
    refine .ofOutcome (Aside.bind (.ofExcept _) fun _ => ?_)
    apply Aside.bind
    · intro event hevent
      rw [List.mem_singleton.1 hevent]
      exact .call rfl
    · exact fun _ => .pure _
  | probe | deferred | endless | unrenderable => exact .ofOutcome (.pure _)

end

/-! ## Whole walks -/

theorem resolve_of_next {f g : Fragment} (h : f.next? = some g) (depth : Nat) :
    resolve env context depth f = (do
      context.enter f
      if depth ≥ maxResolutionDepth then .fail (.resolutionTooDeep maxResolutionDepth)
      else resolve env context (depth + 1) g) := by
  rw [resolve_eq_followBy, Fragment.renderBy_of_next h]
  rfl

private theorem announces_enter {depth : Nat} {f : Fragment} (hallow : context.allow f = .ok ())
    {next : Walk α} {later : Outcome α} {rendered : List Fragment}
    {Stops Stops' : Failure → List Fragment → Prop}
    (h : next.Announces fragments later rendered Stops)
    (hstops : ∀ cause rendered, Stops cause rendered → Stops' cause (f :: rendered)) :
    (Walk.ofOutcome (context.enter f) >>= fun _ => Walk.visit ⟨f, context, depth⟩ >>=
      fun _ => next).Announces fragments (context.enter f >>= fun _ => later) (f :: rendered)
      Stops' := by
  rw [enter_of_ok hallow]
  have htrace : (emit (context.announcement f.kindName) >>= fun _ => later).trace =
      context.announcement f.kindName :: later.trace := rfl
  have hanswer : (emit (context.announcement f.kindName) >>= fun _ => later).answer =
      later.answer := rfl
  refine ⟨?_, ?_, ?_, ?_, ?_⟩
  · apply Walk.outcome?_bind rfl
    intro _ _
    rw [Walk.outcome?_visit_bind, h.outcome?]
  · rw [htrace]
    exact congrArg _ h.announced
  · rw [htrace, List.forall_mem_cons]
    exact ⟨nofun, h.aside⟩
  · intro a ha
    exact congrArg _ (h.ok (hanswer ▸ ha))
  · intro cause hcause
    exact hstops _ _ (h.error (hanswer ▸ hcause))

private theorem announces_refused {depth : Nat} {f : Fragment} {cause : Failure}
    (hallow : context.allow f = .error cause) {next : Unit → Walk α} {later : Unit → Outcome α}
    {rendered : List Fragment} :
    (Walk.ofOutcome (context.enter f) >>= next).Announces fragments (context.enter f >>= later)
      rendered fun cause rendered => f.Stops env context depth cause rendered := by
  rw [enter_of_error hallow]
  refine ⟨rfl, rfl, nofun, nofun, ?_⟩
  intro _ h
  cases h
  exact .refused hallow

section

variable {options : Options} (hquiet : context.Quiet env fragments)
  (hbare : ∀ f ∈ fragments, f.isBare = true)

include hquiet hbare

omit hbare in
private theorem announces_walk_of_ne_fragment (hcontext : options.normalize = .ok context)
    {levels : Nat} {target : Value} (hne : ∀ f, target ≠ .fragment f)
    (hlevels : target.levels ≤ levels) :
    (walk env levels options 0 target).AnnouncesValue env context fragments target := by
  obtain ⟨levels, rfl⟩ : ∃ n, levels = n + 1 :=
    ⟨levels - 1, by have := target.one_le_levels; omega⟩
  rw [Walk.AnnouncesValue, walk_of_ne_fragment hcontext hne, Value.preorder_of_ne_fragment hne]
  apply (Walk.Announces.ofOutcome (aside_evaluate hquiet hne)).mono
  rintro cause _ _ ⟨-, rfl⟩
  exact (Value.stops_of_ne_fragment hne).2 rfl

/-- A walk on enough levels announces what it comes to. -/
theorem announces_walk_fragment (hcontext : options.normalize = .ok context) {levels depth : Nat}
    {f : Fragment} (hfits : f.Fits levels depth) (hsub : f.preorder depth ⊆ fragments) :
    (walk env levels options depth (.fragment f)).Announces fragments
      (resolve env context depth f) (f.preorder depth)
      fun cause rendered => f.Stops env context depth cause rendered := by
  induction levels generalizing options depth f with
  | zero =>
    have hlevels := f.one_le_levels
    rcases hfits with h | ⟨_, _, _, h, _⟩ <;> omega
  | succ levels ih =>
    cases hnext : f.next? with
    | none =>
      rw [walk_of_next_none hcontext hnext, resolve_of_next_none hnext]
      rw [Fragment.preorder_of_next_none hnext] at hsub ⊢
      rw [List.cons_subset] at hsub
      have hparts : ∀ value ∈ f.parts, (walk env levels (.constructed context.toSettings) 0
          value).AnnouncesValue env context fragments value := by
        intro value hvalue
        have hlevels := hfits.part value hvalue
        have hagain := Options.normalize_toSettings hcontext
        rcases value.fragment_or_ne with ⟨g, rfl⟩ | hne
        · apply ih hagain (.inl hlevels)
          exact fun g hg => hsub.2 (List.mem_flatMap.2 ⟨_, hvalue, hg⟩)
        · exact announces_walk_of_ne_fragment hquiet hagain hne hlevels
      cases hallow : context.allow f with
      | error cause => exact announces_refused hallow
      | ok =>
        have hrender := (traces_renderBy hquiet hsub.1 (hbare f hsub.1) hparts).announces
        apply announces_enter hallow hrender
        rintro cause _ (⟨hparts, hfront, hg⟩ | ⟨hparts, hfront, hself⟩)
        · exact .inside hallow hparts hfront hg
        · exact .itself hallow hparts hfront hself
    | some g =>
      rw [walk_of_next hcontext hnext, resolve_of_next hnext]
      rw [Fragment.preorder_of_next hnext] at hsub ⊢
      cases hallow : context.allow f with
      | error cause => exact announces_refused hallow
      | ok =>
        by_cases hdepth : depth < maxResolutionDepth
        · rw [if_neg (Nat.not_le_of_lt hdepth), if_neg (Nat.not_le_of_lt hdepth), if_pos hdepth]
          rw [if_pos hdepth, List.cons_subset] at hsub
          have hanswer : (f.renderBy id (evaluate env context) env context).answer =
              .ok (.other (.fragment g)) := by
            rw [Fragment.renderBy_of_next hnext]
            rfl
          have hrest := ih hcontext (hfits.next hanswer hdepth) hsub.2
          exact announces_enter hallow hrest fun cause rendered => .next hallow hnext hdepth
        · have hdeep : maxResolutionDepth ≤ depth := Nat.le_of_not_lt hdepth
          rw [if_pos hdeep, if_pos hdeep, if_neg hdepth]
          apply announces_enter hallow (.ofOutcome (.ofExcept _))
          rintro cause _ ⟨hcause, rfl⟩
          cases hcause
          exact .tooDeep hallow hnext hdeep

theorem announces_visits (hcontext : options.normalize = .ok context) {target : Value}
    (hsub : target.preorder 0 ⊆ fragments) :
    (walk env target.levels options 0 target).AnnouncesValue env context fragments target := by
  rcases target.fragment_or_ne with ⟨f, rfl⟩ | hne
  · exact announces_walk_fragment hquiet hbare hcontext (.inl (Nat.le_refl _)) hsub
  · exact announces_walk_of_ne_fragment hquiet hcontext hne (Nat.le_refl _)

end

end SqlFragments
