import SqlFragments.Proofs.Journal.Written
import SqlFragments.Proofs.Render.Announced
import SqlFragments.Proofs.Render.Avoids
import SqlFragments.Proofs.Render.Limit
import SqlFragments.Proofs.Render.Handing
import SqlFragments.Proofs.Session.Reply
import SqlFragments.Proofs.Value.Apart

/-!
# Renders and the journal

A journal writes down what begins to render, and that is all that a render and the journal have to
do with one another: under any other journal the same happens and the replies are the same.
-/

namespace SqlFragments

open Outcome

variable {α β : Type} {env : Environment} {context : Context} {fragments : List Fragment}

/-! ## Changes of separators -/

private theorem Change.Grows.of_apply {separator : Value} {change other : Change}
    (h : change.Grows (separator.apply other)) : change.Grows separator := by
  cases change with
  | members label items =>
    obtain ⟨_, h⟩ := h
    exact Value.eq_list_of_apply h
  | bytes label data =>
    obtain ⟨_, h⟩ := h
    exact Value.eq_bytes_of_apply h
  | entries | field => cases h

private theorem Value.grows_of_growth {separator added : Value} {change : Change}
    (h : separator.growth? added = some change) : change.Grows separator := by
  unfold growth? at h
  cases htakes : separator.takesUp with
  | false =>
    split at h
    · next hsum => cases takesUp_plus htakes hsum
    · next hsum => cases takesUp_plus htakes hsum
    · cases h
  | true =>
    cases separator with
    | list label items =>
      cases hmore : added.each? with
      | none =>
        simp only [plus, hmore] at h
        cases h
      | some more =>
        simp only [plus, hmore] at h
        cases h
        exact ⟨items, rfl⟩
    | bytes form data =>
      cases form with
      | fixed | view => cases htakes
      | changeable label =>
        cases added with
        | bytes form' more =>
          by_cases hsame : form' = .changeable label ∧ !more.isEmpty
          · simp only [plus, plusBytes, if_pos hsame] at h
            cases h
          · simp only [plus, plusBytes, if_neg hsame] at h
            cases h
            exact ⟨data, rfl⟩
        | _ => cases h
    | _ => cases htakes

namespace Session

def withJournal (session : Session) (journal : Journal)
    (lines : List (Journal.Target × Journal.Line)) : Session :=
  { session with journal := journal, lines := lines }

/-- A session in which nothing has grown that stands in some settings. -/
def Leaves (session : Session) (context : Context) : Prop :=
  ∀ change ∈ session.grown,
    context.timezone.apply change = context.timezone ∧ context.method.apply change = context.method

variable {session : Session}

/-! ## Events -/

theorem settle_of_forall {α : Type} {apply : Change → α → α} {a : α}
    (h : ∀ change ∈ session.grown, apply change a = a) : session.settle apply a = a := by
  unfold settle
  generalize session.grown = changes at h
  induction changes with
  | nil => rfl
  | cons change rest ih =>
    rw [List.forall_mem_cons] at h
    rw [List.foldl_cons, h.1, ih h.2]

private theorem writeDown_record (hquiet : context.Quiet env fragments)
    {inner : Session → List Event → Session} (hinner : ∀ session, inner session [] = session)
    (kindName : String) (handlers : List Journal.Handler) (journal : Journal)
    (lines : List (Journal.Target × Journal.Line)) :
    writeDown inner (context.record kindName) (session.withJournal journal lines) handlers =
      session.withJournal journal
        (lines ++ handlers.flatMap (·.write env (context.record kindName))) := by
  induction handlers generalizing lines with
  | nil => exact congrArg _ (List.append_nil lines).symm
  | cons handler rest ih =>
    obtain ⟨answer, hanswer⟩ := fixed_format hquiet.timezone hquiet.method handler kindName
    have hformat : ∀ env, handler.format env (context.record kindName) = .ofExcept answer := hanswer
    simp only [writeDown, List.flatMap_cons, ← List.append_assoc, Journal.Handler.write, hformat,
      Outcome.ofExcept, hinner]
    cases answer with
    | error cause =>
      rw [List.append_nil]
      exact ih lines
    | ok line => exact ih _

end Session

def Event.Shown (context : Context) (fragments : List Fragment) (event : Event) : Prop :=
  (∃ kindName, event = context.announcement kindName) ∨ event.Aside fragments

namespace Session

variable {session : Session} {inner : Session → List Event → Session}

private theorem grows_of_settle {separator : Value} {change : Change}
    (h : change.Grows (session.settle Value.apply separator)) : change.Grows separator := by
  unfold settle at h
  generalize session.grown = changes at h
  induction changes generalizing separator with
  | nil => exact h
  | cons other rest ih => exact (ih h).of_apply

private theorem note_shown (hquiet : context.Quiet env fragments)
    (hinner : ∀ session, inner session [] = session) {event : Event}
    (hevent : event.Shown context fragments) (h : session.Leaves context) :
    ∃ after : Session, after.Leaves context ∧ ∀ journal lines,
      note (announceWith inner) (session.withJournal journal lines) event =
        after.withJournal journal
          (lines ++ (Journal.Record.ofEvent? event).toList.flatMap (journal.write env)) := by
  rcases hevent with ⟨kindName, rfl⟩ | haside
  · refine ⟨session, h, fun journal lines => ?_⟩
    have hsettled : ∀ v : Value, (∀ change ∈ session.grown, v.apply change = v) →
        (session.withJournal journal lines).settle Value.apply v = v :=
      fun v hv => settle_of_forall hv
    rw [Context.ofEvent?_announcement, Context.announcement, note,
      hsettled _ fun change hchange => (h change hchange).1,
      hsettled _ fun change hchange => (h change hchange).2]
    refine (writeDown_record hquiet hinner kindName _ journal lines).trans ?_
    rw [Option.toList_some, List.flatMap_singleton]
    rfl
  · cases haside with
    | call hcall =>
      cases event with
      | rendering | extended | inlined => cases hcall
      | literalEscaped value timezone =>
        exact ⟨note (announceWith inner) session (.literalEscaped value timezone), h,
          fun journal lines => congrArg _ (List.append_nil lines).symm⟩
      | identifierEscaped name =>
        exact ⟨note (announceWith inner) session (.identifierEscaped name), h,
          fun journal lines => congrArg _ (List.append_nil lines).symm⟩
      | leafRendered label =>
        exact ⟨note (announceWith inner) session (.leafRendered label), h,
          fun journal lines => congrArg _ (List.append_nil lines).symm⟩
    | @extended members separator hlines added =>
      have hsettled : ∀ journal lines (v : Value),
          (session.withJournal journal lines).settle Value.apply v =
            session.settle Value.apply v := fun _ _ _ => rfl
      cases hgrowth : (session.settle Value.apply separator).growth?
          (session.settle Value.apply added) with
      | none =>
        refine ⟨session, h, fun journal lines => ?_⟩
        simp only [note, extend, hsettled, hgrowth]
        exact congrArg _ (List.append_nil lines).symm
      | some change =>
        refine ⟨{ session.change change with grown := session.grown ++ [change] }, ?_, ?_⟩
        · have hgrows := grows_of_settle (Value.grows_of_growth hgrowth)
          exact List.forall_mem_append.2
            ⟨h, List.forall_mem_singleton.2 (hquiet.grown hlines hgrows)⟩
        · intro journal lines
          simp only [note, extend, hsettled, hgrowth]
          exact congrArg _ (List.append_nil lines).symm

private theorem noteAll_shown (hquiet : context.Quiet env fragments)
    (hinner : ∀ session, inner session [] = session) {trace : List Event}
    (htrace : ∀ event ∈ trace, event.Shown context fragments) (h : session.Leaves context) :
    ∃ after : Session, ∀ journal lines,
      noteAll (announceWith inner) (session.withJournal journal lines) trace =
        after.withJournal journal
          (lines ++ (trace.filterMap Journal.Record.ofEvent?).flatMap (journal.write env)) := by
  induction trace generalizing session with
  | nil => exact ⟨session, fun journal lines => congrArg _ (List.append_nil lines).symm⟩
  | cons event rest ih =>
    rw [List.forall_mem_cons] at htrace
    obtain ⟨noted, hnoted, hnote⟩ := note_shown hquiet hinner htrace.1 h
    obtain ⟨after, hafter⟩ := ih htrace.2 hnoted
    refine ⟨after, fun journal lines => ?_⟩
    have hrecords : (event :: rest).filterMap Journal.Record.ofEvent? =
        (Journal.Record.ofEvent? event).toList ++ rest.filterMap Journal.Record.ofEvent? := by
      rw [List.filterMap_cons]
      cases Journal.Record.ofEvent? event <;> rfl
    rw [noteAll, hnote, hafter, hrecords, List.flatMap_append, List.append_assoc]

theorem witness_shown (hquiet : context.Quiet env fragments) {trace : List Event}
    (htrace : ∀ event ∈ trace, event.Shown context fragments) (h : session.Leaves context) :
    ∃ after : Session, ∀ journal lines, (session.withJournal journal lines).witness trace =
      after.withJournal journal
        (lines ++ (trace.filterMap Journal.Record.ofEvent?).flatMap (journal.write env)) :=
  noteAll_shown hquiet (fun _ => rfl) htrace h

end Session

/-! ## What a render evaluates -/

def Context.visits (context : Context) (env : Environment) (target : Value) : List Visit :=
  (Options.constructed context.toSettings).visits env target

def Context.records (context : Context) (env : Environment) (target : Value) :
    List Journal.Record :=
  (context.visits env target).map fun visit => context.record visit.fragment.kindName

def Context.IsNormal (context : Context) : Prop :=
  (Options.constructed context.toSettings).normalize = .ok context

private theorem ofEvent?_isRendering (event : Event) :
    (if event.isRendering then Journal.Record.ofEvent? event else none) =
      Journal.Record.ofEvent? event := by
  cases event <;> rfl

private theorem trace_evaluate (hnormal : context.IsNormal) (hquiet : context.Quiet env fragments)
    (hbare : ∀ f ∈ fragments, f.isBare = true) {target : Value}
    (hsub : target.preorder 0 ⊆ fragments) :
    (∀ event ∈ (evaluate env context target).trace, event.Shown context fragments) ∧
      (evaluate env context target).trace.filterMap Journal.Record.ofEvent? =
        context.records env target := by
  have hannounces := announces_visits hquiet hbare hnormal hsub
  have hannounced : (evaluate env context target).trace.filter Event.isRendering =
      (context.visits env target).map fun visit =>
        context.announcement visit.fragment.kindName := by
    refine hannounces.announced.trans (List.map_congr_left fun visit hvisit => ?_)
    rw [Visit.announcement, context_of_mem_visits hnormal target.levels 0 target visit hvisit]
  refine ⟨fun event hevent => ?_, ?_⟩
  · cases hrendering : event.isRendering with
    | false => exact .inr (hannounces.aside event hevent hrendering)
    | true =>
      have hmem := List.mem_filter.2 ⟨hevent, hrendering⟩
      rw [hannounced, List.mem_map] at hmem
      obtain ⟨visit, _, rfl⟩ := hmem
      exact .inl ⟨_, rfl⟩
  · have hfilter := congrArg (List.filterMap Journal.Record.ofEvent?) hannounced
    rw [List.filterMap_filter, List.filterMap_map] at hfilter
    simp only [ofEvent?_isRendering] at hfilter
    exact hfilter.trans (congrFun List.filterMap_eq_map _)

theorem Value.template_or (value : Value) :
    (∃ label form strings values, value = .fragment (.template label form strings values)) ∨
      (∃ f, value = .fragment f ∧ f.template? = none) ∨ ∀ f, value ≠ .fragment f := by
  cases value with
  | fragment f =>
    cases f with
    | template => exact .inl ⟨_, _, _, _, rfl⟩
    | _ => exact .inr (.inl ⟨_, rfl, rfl⟩)
  | _ => exact .inr (.inr nofun)

namespace Session

variable {session : Session}

/-! ## Renders under any journal -/

def recordsOf (session : Session) (target : Value) (context? : Option Context) :
    List Journal.Record :=
  context?.elim [] fun context => context.records session.environment target

def Undisturbed (session : Session) (target : Value) (context? : Option Context) : Prop :=
  ∀ context, context? = some context → context.Quiet session.environment (target.preorder 0)

/-- Something that is done alike whatever the journal is, for which a thing may be evaluated: the
journal writes down what is, and where that fails, what is done fails for the same cause. -/
def Logs (session : Session) (target : Value) (context? : Option Context)
    (run : Session → Session × Except Failure α) : Prop :=
  ∃ (after : Session) (answer : Except Failure α),
    (∀ journal lines, run (session.withJournal journal lines) =
      (after.withJournal journal (lines ++
        (session.recordsOf target context?).flatMap (journal.write session.environment)),
      answer)) ∧
    ∀ context cause, context? = some context →
      (evaluate session.environment context target).answer = .error cause → answer = .error cause

def andThen (run : Session → Session × Except Failure α)
    (next : Session → α → Session × Except Failure β) (session : Session) :
    Session × Except Failure β :=
  match run session with
  | (after, .error cause) => (after, .error cause)
  | (after, .ok a) => next after a

variable {target : Value} {options : Options} {context? : Option Context}

private theorem Logs.andThen {run : Session → Session × Except Failure α}
    {next : Session → α → Session × Except Failure β} (h : session.Logs target context? run)
    (hnext : ∀ (after : Session) a journal lines, next (after.withJournal journal lines) a =
      ((next after a).1.withJournal journal lines, (next after a).2)) :
    session.Logs target context? (andThen run next) := by
  obtain ⟨after, answer, hrun, herror⟩ := h
  cases answer with
  | error cause =>
    refine ⟨after, .error cause, fun journal lines => ?_, fun context cause hcontext hcause => ?_⟩
    · simp only [Session.andThen, hrun]
    · cases herror context cause hcontext hcause
      rfl
  | ok a =>
    refine ⟨(next after a).1, (next after a).2, fun journal lines => ?_,
      fun context cause hcontext hcause => ?_⟩
    · simp only [Session.andThen, hrun, hnext]
    · cases herror context cause hcontext hcause

private theorem Logs.congr {run run' : Session → Session × Except Failure α}
    (h : session.Logs target context? run)
    (hrun : ∀ journal lines, run' (session.withJournal journal lines) =
      run (session.withJournal journal lines)) : session.Logs target context? run' := by
  obtain ⟨after, answer, heq, herror⟩ := h
  exact ⟨after, answer, fun journal lines => (hrun journal lines).trans (heq journal lines), herror⟩

private theorem logs_nothing {run : Session → Session × Except Failure α}
    {answer : Except Failure α} (h : ∀ journal lines, run (session.withJournal journal lines) =
      (session.withJournal journal lines, answer)) : session.Logs target none run := by
  refine ⟨session, answer, fun journal lines => (h journal lines).trans ?_,
    fun _ _ hcontext => by cases hcontext⟩
  rw [recordsOf, Option.elim_none, List.flatMap_nil, List.append_nil]

private theorem logs_observe_silent {outcome : Outcome α} (h : outcome.trace = []) :
    session.Logs target none fun s => s.observe outcome := by
  refine ⟨{ session with grown := [] }, outcome.answer, fun journal lines => ?_,
    fun _ _ hcontext => by cases hcontext⟩
  simp only [observe, h, recordsOf, Option.elim_none, List.flatMap_nil, List.append_nil]
  rfl

variable (hbare : ∀ f ∈ target.preorder 0, f.isBare = true)

include hbare

private theorem logs_observe (hnormal : context.IsNormal)
    (hquiet : context.Quiet session.environment (target.preorder 0)) {outcome : Outcome α}
    (htrace : outcome.trace = (evaluate session.environment context target).trace)
    (herror : ∀ cause, (evaluate session.environment context target).answer = .error cause →
      outcome.answer = .error cause) :
    session.Logs target (some context) fun s => s.observe outcome := by
  obtain ⟨hshown, hrecords⟩ := trace_evaluate hnormal hquiet hbare (List.Subset.refl _)
  rw [← htrace] at hshown hrecords
  have hleaves : ({ session with grown := [] } : Session).Leaves context := nofun
  obtain ⟨after, hafter⟩ := witness_shown hquiet hshown hleaves
  rw [hrecords] at hafter
  refine ⟨after, outcome.answer, fun journal lines => Prod.ext (hafter journal lines) rfl, ?_⟩
  rintro _ cause ⟨⟩ h
  exact herror cause h

private theorem logs_evaluateNow (hcontext : options.normalize = .ok context)
    (hquiet : context.Quiet session.environment (target.preorder 0)) :
    session.Logs target (some context) fun s => s.evaluateNow target options := by
  have hnormal := Options.normalize_toSettings hcontext
  have hsettled : session.Logs target (some context) (andThen
      (fun s => s.observe (evaluate session.environment context target))
      fun after rendered => (after, .ok (after.settle Rendered.apply rendered))) :=
    (logs_observe hbare hnormal hquiet rfl fun _ => id).andThen fun _ _ _ _ => rfl
  refine hsettled.congr fun journal lines => ?_
  have henvironment : (session.withJournal journal lines).environment = session.environment := rfl
  simp only [evaluateNow, hcontext, henvironment, andThen]
  rcases (session.withJournal journal lines).observe
    (evaluate session.environment context target) with ⟨after, cause | rendered⟩ <;> rfl

private theorem logs_evaluateAndKeep (hcontext : options.normalize = .ok context)
    (hquiet : context.Quiet session.environment (target.preorder 0)) :
    session.Logs target (some context) fun s => s.evaluateAndKeep target options := by
  have hkept : session.Logs target (some context) (andThen
      (fun s => s.evaluateNow target options)
      fun after rendered => ((after.keepRendered rendered).1,
        .ok (after.keepRendered rendered).2)) := by
    apply (logs_evaluateNow hbare hcontext hquiet).andThen
    intro after rendered journal lines
    cases rendered <;> rfl
  refine hkept.congr fun journal lines => ?_
  simp only [evaluateAndKeep, andThen]
  rcases (session.withJournal journal lines).evaluateNow target options with
    ⟨after, cause | rendered⟩ <;> rfl

def fresh? (session : Session) (label : Label) (fields : Entries Setting) : Option Context :=
  match session.stored? label fields with
  | .ok none => some (.ofFields fields)
  | _ => none

def rememberRendered (session : Session) (label : Label) (fields : Entries Setting) :
    Handout → Session
  | .result place => session.remember label fields place
  | .value _ => session

private theorem logs_renderTemplate {label : Label} {fields : Entries Setting}
    (hquiet : session.Undisturbed target (session.fresh? label fields)) :
    session.Logs target (session.fresh? label fields) fun s =>
      s.renderTemplate label target fields := by
  have hstored : ∀ journal lines, (session.withJournal journal lines).stored? label fields =
      session.stored? label fields := fun _ _ => rfl
  unfold fresh? at hquiet ⊢
  cases hslot : session.stored? label fields with
  | error cause =>
    apply logs_nothing
    intro journal lines
    simp only [renderTemplate, hstored, hslot]
    rfl
  | ok place? =>
    cases place? with
    | some place =>
      apply logs_nothing
      intro journal lines
      simp only [renderTemplate, hstored, hslot]
      rfl
    | none =>
      rw [hslot] at hquiet
      have hcontext : (Options.mapping 0 fields).normalize = .ok (.ofFields fields) := rfl
      have hremembered : session.Logs target (some (.ofFields fields)) (andThen
          (fun s => s.evaluateAndKeep target (.mapping 0 fields))
          fun after handout => (after.rememberRendered label fields handout, .ok handout)) := by
        apply (logs_evaluateAndKeep hbare hcontext (hquiet _ rfl)).andThen
        intro after handout journal lines
        cases handout <;> rfl
      refine hremembered.congr fun journal lines => ?_
      simp only [renderTemplate, hstored, hslot, andThen]
      rcases (session.withJournal journal lines).evaluateAndKeep target (.mapping 0 fields) with
        ⟨after, cause | place | v⟩ <;> rfl

def ownContext? (session : Session) (target : Value) (options : Options) : Option Context :=
  match target with
  | .fragment (.template label _ _ _) => options.fields.toOption.bind (session.fresh? label)
  | .fragment f => if f.hides "to_sql" then none else options.normalize.toOption
  | _ => none

def inlinedContext? (session : Session) (target : Value) (options : Options) : Option Context :=
  match target with
  | .fragment (.template label _ _ _) =>
    options.fields.toOption.bind fun fields => session.fresh? label (inlinedFields fields)
  | .fragment f =>
    if f.hides "to_string" || f.hides "to_sql" then none
    else options.fields.toOption.map fun fields => .ofFields (inlinedFields fields)
  | _ => none

/-- The context under which a render evaluates what it renders. There is none where the render fails
before that, and where a template remembers its result. -/
def evaluated? (session : Session) (manner : Manner) (target : Value) (options : Options) :
    Option Context :=
  match manner with
  | .evaluate | .inspectResult => options.normalize.toOption
  | .own => session.ownContext? target options
  | .inlined => session.inlinedContext? target options
  | .plainText => session.inlinedContext? target .absent
  | .inspect => none

section

omit hbare

variable {f : Fragment} (h : f.template? = none) (session : Session) (options : Options)

include h

theorem ownContext?_of_not_template : session.ownContext? (.fragment f) options =
    if f.hides "to_sql" then none else options.normalize.toOption := by
  cases f with
  | template => cases h
  | _ => rfl

theorem renderFragment_of_not_template : session.renderFragment (.fragment f) options =
    if f.hides "to_sql" then (session, .error .wrongType)
    else session.evaluateAndKeep (.fragment f) options := by
  cases f with
  | template => cases h
  | _ => rfl

theorem inlinedContext?_of_not_template :
    session.inlinedContext? (.fragment f) options =
      if f.hides "to_string" || f.hides "to_sql" then none
      else options.fields.toOption.map fun fields => .ofFields (inlinedFields fields) := by
  cases f with
  | template => cases h
  | _ => rfl

theorem renderInlined_of_not_template : session.renderInlined (.fragment f) options =
    if f.hides "to_string" then (session, .error .wrongType)
    else match options.fields with
      | .error cause => (session, .error cause)
      | .ok fields =>
        if f.hides "to_sql" then (session, .error .wrongType)
        else session.evaluateAndKeep (.fragment f) (.mapping 0 (inlinedFields fields)) := by
  cases f with
  | template => cases h
  | _ => rfl

end

section

omit hbare

variable (h : ∀ f, target ≠ .fragment f) (session : Session) (options : Options)

include h

theorem renderFragment_of_ne_fragment :
    session.ownContext? target options = none ∧
      session.renderFragment target options = (session, .error .missingAttribute) := by
  cases target with
  | fragment f => exact absurd rfl (h f)
  | _ => exact ⟨rfl, rfl⟩

theorem renderInlined_of_ne_fragment :
    session.inlinedContext? target options = none ∧
      session.renderInlined target options = (session, .error .missingAttribute) := by
  cases target with
  | fragment f => exact absurd rfl (h f)
  | _ => exact ⟨rfl, rfl⟩

end

private theorem logs_evaluateAndKeep_of
    (hquiet : session.Undisturbed target options.normalize.toOption) :
    session.Logs target options.normalize.toOption fun s =>
      s.evaluateAndKeep target options := by
  cases hcontext : options.normalize with
  | error cause =>
    apply logs_nothing
    intro journal lines
    simp only [evaluateAndKeep, evaluateNow, hcontext]
    rfl
  | ok context =>
    rw [hcontext] at hquiet
    exact logs_evaluateAndKeep hbare hcontext (hquiet context rfl)

private theorem logs_renderFragment
    (hquiet : session.Undisturbed target (session.ownContext? target options)) :
    session.Logs target (session.ownContext? target options) fun s =>
      s.renderFragment target options := by
  rcases target.template_or with ⟨label, form, strings, values, rfl⟩ | ⟨f, rfl, hf⟩ | hne
  · cases hfields : options.fields with
    | error cause =>
      simp only [ownContext?, hfields]
      apply logs_nothing
      intro journal lines
      simp only [renderFragment, hfields]
      rfl
    | ok fields =>
      simp only [ownContext?, hfields] at hquiet ⊢
      refine (logs_renderTemplate hbare hquiet).congr fun journal lines => ?_
      simp only [renderFragment, hfields]
  · rw [ownContext?_of_not_template hf] at hquiet ⊢
    simp only [renderFragment_of_not_template hf]
    split at hquiet
    · next hhides =>
      simp only [if_pos hhides]
      exact logs_nothing fun _ _ => rfl
    · next hhides =>
      simp only [if_neg hhides]
      exact logs_evaluateAndKeep_of hbare hquiet
  · simp only [renderFragment_of_ne_fragment hne]
    exact logs_nothing fun _ _ => rfl

private theorem logs_renderInlined
    (hquiet : session.Undisturbed target (session.inlinedContext? target options)) :
    session.Logs target (session.inlinedContext? target options) fun s =>
      s.renderInlined target options := by
  rcases target.template_or with ⟨label, form, strings, values, rfl⟩ | ⟨f, rfl, hf⟩ | hne
  · have hhides : (Fragment.template label form strings values).hides "to_string" = false := rfl
    cases hfields : options.fields with
    | error cause =>
      simp only [inlinedContext?, hfields]
      apply logs_nothing
      intro journal lines
      simp only [renderInlined, hhides, hfields]
      rfl
    | ok fields =>
      simp only [inlinedContext?, hfields] at hquiet ⊢
      refine (logs_renderTemplate hbare hquiet).congr fun journal lines => ?_
      simp only [renderInlined, hhides, hfields]
      rfl
  · rw [inlinedContext?_of_not_template hf] at hquiet ⊢
    simp only [renderInlined_of_not_template hf]
    cases hstring : f.hides "to_string" with
    | true => exact logs_nothing fun _ _ => rfl
    | false =>
      cases hfields : options.fields with
      | error cause =>
        have hnone : (if false || f.hides "to_sql" then none
            else (Except.error cause).toOption.map fun fields =>
              Context.ofFields (inlinedFields fields)) = none := ite_self _
        rw [hnone]
        exact logs_nothing fun _ _ => rfl
      | ok fields =>
        rw [hstring, hfields] at hquiet
        cases hown : f.hides "to_sql" with
        | true => exact logs_nothing fun _ _ => rfl
        | false =>
          rw [hown] at hquiet
          exact logs_evaluateAndKeep hbare rfl (hquiet _ rfl)
  · simp only [renderInlined_of_ne_fragment hne]
    exact logs_nothing fun _ _ => rfl

/-! ## Texts under any journal -/

omit hbare in
private theorem trace_expectText (value : Value) : value.expectText.trace = [] := by
  cases value <;> rfl

omit hbare in
private theorem trace_written (outcome : Outcome Rendered) :
    (do
      let rendered ← outcome
      let result ← rendered.expect
      result.sql.expectText).trace = outcome.trace := by
  cases h : outcome.answer with
  | error cause => exact trace_bind_error _ _ cause h
  | ok rendered =>
    rw [trace_bind_ok _ _ rendered h]
    cases rendered with
    | result r =>
      refine (congrArg (outcome.trace ++ ·) ?_).trans (List.append_nil _)
      exact (trace_bind_ok _ _ r rfl).trans (trace_expectText r.sql)
    | other v => exact List.append_nil _

omit hbare in
private theorem trace_inline {env : Environment} {label : Label} {form : TemplateForm}
    {strings values : List Value} (h : env.remembered label = .ok none) (x : Outcome Rendered) :
    (env.inline (.template label form strings values) fun _ => x).trace =
      [.inlined label x.trace (x.answer.bind Rendered.toResult).toOption] := by
  simp only [Environment.inline, h]
  exact trace_written _

omit hbare in
private theorem answer_inline_error {env : Environment} {label : Label} {form : TemplateForm}
    {strings values : List Value} (h : env.remembered label = .ok none) {x : Outcome Rendered}
    {cause : Failure} (hx : x.answer = .error cause) :
    (env.inline (.template label form strings values) fun _ => x).answer = .error cause := by
  simp only [Environment.inline, h]
  exact answer_bind_eq_error.2 (.inl hx)

omit hbare in
private theorem logs_inline {label : Label} {form : TemplateForm} {strings values : List Value}
    (hbare : ∀ f ∈ (Value.fragment (.template label form strings values)).preorder 0, f.isBare)
    (hquiet : session.Undisturbed (.fragment (.template label form strings values))
      (session.fresh? label (inlinedFields []))) :
    session.Logs (.fragment (.template label form strings values))
      (session.fresh? label (inlinedFields [])) fun s =>
        s.observe (session.environment.inline (.template label form strings values) fun _ =>
          resolve session.environment .inlined 0 (.template label form strings values)) := by
  have hstored : ∀ journal lines,
      ({ session.withJournal journal lines with grown := [] } : Session).stored? label
        (inlinedFields []) = session.stored? label (inlinedFields []) := fun _ _ => rfl
  unfold fresh? at hquiet ⊢
  cases hslot : session.stored? label (inlinedFields []) with
  | error cause =>
    apply logs_observe_silent
    simp only [Environment.inline, environment, hslot]
    rfl
  | ok place? =>
    cases place? with
    | some place =>
      cases hplace : session.results[place]? with
      | some r =>
        apply logs_observe_silent
        simp only [Environment.inline, environment, hslot, Except.map, Option.bind_some, hplace]
        exact trace_expectText r.sql
      | none =>
        have hnone : session.environment.remembered label = .ok none := by
          simp only [environment, hslot, Except.map, Option.bind_some, hplace]
          rfl
        refine ⟨{ session with grown := [] }, _, fun journal lines => Prod.ext ?_ rfl,
          fun _ _ hcontext => by cases hcontext⟩
        simp only [observe, trace_inline hnone, witness, noteAll, note, hstored, hslot]
        exact congrArg _ (List.append_nil lines).symm
    | none =>
      have hnone : session.environment.remembered label = .ok none := by
        simp only [environment, hslot]
        rfl
      rw [hslot] at hquiet
      obtain ⟨after, _, hrun, _⟩ := logs_observe hbare Options.normalize_inlined (hquiet _ rfl) rfl
        fun _ => id
      have hnoted : ∀ journal lines, noteAll
          (announceWith (noteAll (announceWith fun session _ => session)))
          { session.withJournal journal lines with grown := [] } (resolve session.environment
            .inlined 0 (.template label form strings values)).trace = _ :=
        fun journal lines => congrArg Prod.fst (hrun journal lines)
      have herror : ∀ context cause,
          some (Context.ofFields (inlinedFields [])) = some context →
          (evaluate session.environment context
            (.fragment (.template label form strings values))).answer = .error cause →
          (session.environment.inline (.template label form strings values) fun _ =>
            resolve session.environment .inlined 0
              (.template label form strings values)).answer = .error cause := by
        rintro _ cause ⟨⟩ hcause
        exact answer_inline_error hnone hcause
      cases hresult : ((resolve session.environment .inlined 0
          (.template label form strings values)).answer.bind Rendered.toResult).toOption with
      | none =>
        refine ⟨after, _, fun journal lines => Prod.ext ?_ rfl, herror⟩
        simp only [observe, trace_inline hnone, witness, noteAll, note, hstored, hslot, hresult]
        exact hnoted journal lines
      | some r =>
        refine ⟨(after.keep (after.settle Result.apply r)).1.remember label (inlinedFields [])
          (after.keep (after.settle Result.apply r)).2, _, fun journal lines => Prod.ext ?_ rfl,
          herror⟩
        simp only [observe, trace_inline hnone, witness, noteAll, note, hstored, hslot, hresult,
          hnoted]
        rfl

private theorem logs_written
    (hquiet : session.Undisturbed target (session.inlinedContext? target .absent)) :
    session.Logs target (session.inlinedContext? target .absent) fun s =>
      s.observe (plainText session.environment target) := by
  rcases target.template_or with ⟨label, form, strings, values, rfl⟩ | ⟨f, rfl, hf⟩ | hne
  · have hplain : plainText session.environment (.fragment (.template label form strings values)) =
        session.environment.inline (.template label form strings values) fun _ =>
          resolve session.environment .inlined 0 (.template label form strings values) := rfl
    simp only [hplain]
    exact logs_inline hbare hquiet
  · rw [inlinedContext?_of_not_template hf] at hquiet ⊢
    have hplain : plainText session.environment (.fragment f) =
        if f.hides "to_string" || f.hides "to_sql" then .fail .wrongType
        else (do
          let rendered ← evaluate session.environment .inlined (.fragment f)
          let result ← rendered.expect
          result.sql.expectText) := by
      cases f with
      | template => cases hf
      | _ => rfl
    rw [hplain]
    split at hquiet
    · next hhides =>
      simp only [if_pos hhides]
      exact logs_observe_silent rfl
    · next hhides =>
      simp only [if_neg hhides]
      apply logs_observe hbare Options.normalize_inlined (hquiet _ rfl) (trace_written _)
      exact fun cause hcause => answer_bind_eq_error.2 (.inl hcause)
  · rw [(renderInlined_of_ne_fragment hne session .absent).1]
    apply logs_observe_silent
    have hshow : plainText session.environment target = target.showText := by
      cases target with
      | fragment f => exact absurd rfl (hne f)
      | _ => rfl
    rw [hshow]
    rfl

omit hbare in
private theorem logs_handOut {run : Session → Session × Except Failure Handout}
    (h : session.Logs target context? run) :
    session.Logs target context? fun s => (run s).1.handOut (run s).2 := by
  have hhanded : session.Logs target context?
      (andThen run fun after handout => after.handOut (.ok handout)) := h.andThen fun _ _ _ _ => rfl
  refine hhanded.congr fun journal lines => ?_
  simp only [andThen]
  rcases run (session.withJournal journal lines) with ⟨after, cause | handout⟩ <;> rfl

omit hbare in
private theorem logs_handOutText {run : Session → Session × Except Failure Handout}
    (h : session.Logs target context? run) :
    session.Logs target context? fun s => (run s).1.handOutText (run s).2 := by
  have hhanded : session.Logs target context?
      (andThen run fun after handout => after.handOutText (.ok handout)) :=
    h.andThen fun _ _ _ _ => rfl
  refine hhanded.congr fun journal lines => ?_
  simp only [andThen]
  rcases run (session.withJournal journal lines) with ⟨after, cause | handout⟩ <;> rfl

private theorem logs_render {manner : Manner}
    (hquiet : session.Undisturbed target (session.evaluated? manner target options)) :
    session.Logs target (session.evaluated? manner target options) fun s =>
      s.render manner target options := by
  cases manner with
  | evaluate => exact logs_handOut (logs_evaluateAndKeep_of hbare hquiet)
  | own => exact logs_handOut (logs_renderFragment hbare hquiet)
  | inlined => exact logs_handOutText (logs_renderInlined hbare hquiet)
  | plainText =>
    have hhanded : session.Logs target (session.inlinedContext? target .absent) (andThen
        (fun s => s.observe (plainText session.environment target))
        fun after text => (after, .ok (handOutValue (.text text)))) :=
      (logs_written hbare hquiet).andThen fun _ _ _ _ => rfl
    refine hhanded.congr fun journal lines => ?_
    have henvironment : (session.withJournal journal lines).environment = session.environment := rfl
    simp only [render, henvironment, andThen]
    rcases (session.withJournal journal lines).observe (plainText session.environment target) with
      ⟨after, cause | text⟩ <;> rfl
  | inspect => exact logs_nothing fun _ _ => rfl
  | inspectResult =>
    cases hcontext : options.normalize with
    | error cause =>
      simp only [evaluated?, hcontext]
      apply logs_nothing
      intro journal lines
      simp only [render, evaluateNow, hcontext]
      rfl
    | ok context =>
      simp only [evaluated?, hcontext] at hquiet ⊢
      have hhanded : session.Logs target (some context) (andThen
          (fun s => s.evaluateNow target options)
          fun after rendered => (after, do return handOutValue (.text (← rendered.inspect)))) :=
        (logs_evaluateNow hbare hcontext (hquiet context rfl)).andThen fun _ _ _ _ => rfl
      refine hhanded.congr fun journal lines => ?_
      simp only [render, andThen]
      rcases (session.withJournal journal lines).evaluateNow target options with
        ⟨after, cause | rendered⟩ <;> rfl

/-- A render as a step comes to the same under any journal, which writes down the records of what
is evaluated. Where the evaluation fails, the step does. -/
theorem perform_withJournal {manner : Manner}
    (hquiet : session.Undisturbed target (session.evaluated? manner target options)) :
    (∀ journal lines, (session.withJournal journal lines).perform (.render manner target options) =
      ((session.perform (.render manner target options)).1.withJournal journal
        (lines ++ (session.recordsOf target (session.evaluated? manner target options)).flatMap
          (journal.write session.environment)),
        (session.perform (.render manner target options)).2)) ∧
    ∀ context cause, session.evaluated? manner target options = some context →
      (evaluate session.environment context target).answer = .error cause →
      (session.perform (.render manner target options)).2 = .error cause := by
  obtain ⟨after, answer, hrun, herror⟩ := logs_render hbare hquiet
  have hself : session.render manner target options = _ := hrun session.journal session.lines
  constructor
  · intro journal lines
    have hother : (session.withJournal journal lines).render manner target options = _ :=
      hrun journal lines
    rw [perform_render, perform_render, hother, hself]
    rfl
  · intro context cause hcontext hcause
    rw [perform_render, hself, herror context cause hcontext hcause]
    rfl

end Session

end SqlFragments
