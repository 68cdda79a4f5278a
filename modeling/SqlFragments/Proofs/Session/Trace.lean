import SqlFragments.Proofs.Session.Logging
import SqlFragments.Render.Recorder

/-!
# Renders written down

A journal that listens closely enough writes down the trace of a render: one record for each
fragment of the tree in the order in which they begin to render, all of them with the settings of
the render, and as many of them as came before a failure. What comes of renders, and of whole
sessions, does not depend on the journal.
-/

namespace SqlFragments

open Journal Outcome

/-! ## Functions that only record their calls -/

theorem LiteralEscaper.onlyCalls_recording {env : Environment} {value timezone : Value}
    (label : Label) {write : Environment → Value → Value → Outcome Value}
    (h : (write env value timezone).trace = []) (json : Unit → Outcome Json) :
    ((LiteralEscaper.recording label write).write env value timezone json).OnlyCalls := by
  intro event hevent
  have htrace : ((LiteralEscaper.recording label write).write env value timezone json).trace =
      .literalEscaped value timezone :: (write env value timezone).trace := rfl
  rw [htrace, h, List.mem_singleton] at hevent
  rw [hevent]
  rfl

theorem IdentifierEscaper.onlyCalls_standard (env : Environment) (name : Value) :
    (IdentifierEscaper.standard.write env name).OnlyCalls := nofun

/-! ## The settings of a render -/

/-- The settings that options give to a render. Where a thing is written out, values are literals,
and a thing inside a message is written out by default settings. -/
def Manner.settings (manner : Manner) (options : Options) : Except Failure Context :=
  match manner with
  | .inlined => options.normalize.map fun context => { context with withParameters := false }
  | .plainText => .ok .inlined
  | _ => options.normalize

private theorem ok_of_toOption_eq_some {answer : Except Failure Context} {context : Context}
    (h : answer.toOption = some context) : answer = .ok context := by
  cases answer with
  | error cause => cases h
  | ok a =>
    cases h
    rfl

section

variable {manner : Manner} {options : Options} {context : Context}

theorem Manner.isNormal_settings (h : manner.settings options = .ok context) :
    context.IsNormal := by
  cases manner with
  | inlined =>
    cases hfields : options.fields with
    | error cause =>
      rw [settings, Options.normalize, hfields] at h
      cases h
    | ok fields =>
      rw [settings, Options.normalize, hfields] at h
      cases h
      have hinlined : (Options.mapping 0 (inlinedFields fields)).normalize =
          .ok { Context.ofFields fields with withParameters := false } :=
        congrArg _ (Context.ofFields_inlinedFields fields)
      exact Options.normalize_toSettings hinlined
  | plainText =>
    cases h
    exact Options.normalize_inlined
  | _ => exact Options.normalize_toSettings h

end

namespace Session

variable {session : Session} {manner : Manner} {target : Value} {options : Options}
  {context : Context}

private theorem fresh?_eq_some {label : Label} {fields : Entries Setting}
    (h : session.fresh? label fields = some context) :
    session.stored? label fields = .ok none ∧ context = .ofFields fields := by
  unfold fresh? at h
  split at h
  · next hstored => exact ⟨hstored, (Option.some.inj h).symm⟩
  · cases h

private theorem ownContext?_eq_some (h : session.ownContext? target options = some context) :
    options.normalize = .ok context := by
  rcases target.template_or with ⟨label, form, strings, values, rfl⟩ | ⟨f, rfl, hf⟩ | hne
  · cases hfields : options.fields with
    | error cause =>
      rw [ownContext?, hfields] at h
      cases h
    | ok fields =>
      rw [ownContext?, hfields] at h
      rw [Options.normalize, hfields, (fresh?_eq_some h).2]
      rfl
  · rw [ownContext?_of_not_template hf] at h
    split at h
    · cases h
    · exact ok_of_toOption_eq_some h
  · rw [(renderFragment_of_ne_fragment hne session options).1] at h
    cases h

private theorem inlinedContext?_eq_some
    (h : session.inlinedContext? target options = some context) :
    Manner.inlined.settings options = .ok context := by
  have hsettings : ∀ fields, options.fields = .ok fields →
      Manner.inlined.settings options = .ok (.ofFields (inlinedFields fields)) := by
    intro fields hfields
    rw [Manner.settings, Options.normalize, hfields, Context.ofFields_inlinedFields]
    rfl
  rcases target.template_or with ⟨label, form, strings, values, rfl⟩ | ⟨f, rfl, hf⟩ | hne
  · cases hfields : options.fields with
    | error cause =>
      rw [inlinedContext?, hfields] at h
      cases h
    | ok fields =>
      rw [inlinedContext?, hfields] at h
      rw [hsettings fields hfields, (fresh?_eq_some h).2]
  · rw [inlinedContext?_of_not_template hf] at h
    split at h
    · cases h
    · cases hfields : options.fields with
      | error cause =>
        rw [hfields] at h
        cases h
      | ok fields =>
        rw [hfields] at h
        cases h
        exact hsettings fields hfields
  · rw [(renderInlined_of_ne_fragment hne session options).1] at h
    cases h

theorem settings_of_evaluated? (h : session.evaluated? manner target options = some context) :
    manner.settings options = .ok context := by
  cases manner with
  | evaluate => exact ok_of_toOption_eq_some h
  | inspectResult => exact ok_of_toOption_eq_some h
  | own => exact ownContext?_eq_some h
  | inlined => exact inlinedContext?_eq_some h
  | plainText => exact inlinedContext?_eq_some h
  | inspect => cases h

/-! ## The trace of a render -/

/-- A render is done alike under every journal, which writes down the trace of what it evaluates,
and of nothing where a template remembers its result. There is one record for each fragment that
begins to render, in the order of the tree, with the settings of the render. All fragments of the
tree do where the evaluation succeeds. Where it fails, so does the render, and they do up to the
fragment that cannot be rendered for its own sake. -/
theorem perform_traces (hbare : ∀ f ∈ target.preorder 0, f.isBare = true)
    (hquiet : session.Undisturbed target (session.evaluated? manner target options)) :
    let step := Step.render manner target options
    let records := session.recordsOf target (session.evaluated? manner target options)
    (∀ journal lines, (session.withJournal journal lines).perform step =
      ((session.perform step).1.withJournal journal
        (lines ++ records.flatMap (journal.write session.environment)),
      (session.perform step).2)) ∧
    (session.evaluated? manner target options = none → records = []) ∧
    ∀ context, session.evaluated? manner target options = some context →
      let rendered := (context.visits session.environment target).map Visit.fragment
      manner.settings options = .ok context ∧
      records = rendered.map (fun f => context.record f.kindName) ∧
      match (evaluate session.environment context target).answer with
      | .ok _ => rendered = target.preorder 0
      | .error cause => (session.perform step).2 = .error cause ∧
        rendered <+: target.preorder 0 ∧
        target.Stops session.environment context cause rendered := by
  intro step records
  obtain ⟨hperform, herror⟩ := perform_withJournal hbare hquiet
  refine ⟨hperform, ?_, ?_⟩
  · intro hnone
    simp only [records, hnone]
    rfl
  · intro context hcontext rendered
    have hsettings := settings_of_evaluated? hcontext
    have hannounces := announces_visits (hquiet context hcontext) hbare
      (Manner.isNormal_settings hsettings) (List.Subset.refl _)
    refine ⟨hsettings, ?_, ?_⟩
    · simp only [records, rendered, hcontext, List.map_map]
      rfl
    · split
      · next hanswer => exact hannounces.ok hanswer
      · next hanswer =>
        have hstops := hannounces.error hanswer
        exact ⟨herror context _ hcontext hanswer, hstops.isPrefix, hstops⟩

/-- A query with a number, a name that two others render to, and lines with nothing, a text and a
clause, with values as literals that a function of the user writes and records. -/
theorem perform_traces_query :
    let session : Session := { journal := {
      handlers := [⟨.console, false, debugLevel⟩], level := debugLevel } }
    let name : Fragment := .deferred 1 (.fragment (.deferred 2 (.fragment (.identifier "t")) [])) []
    let clause : Fragment := .clause [.text "WHERE ", .text ""] (.fragment (.raw (.text "a")))
    let rows : Fragment := .lines [.null, .text "b", .fragment clause] (.text " ")
    let query : Value := .fragment (.template 0 .statement
      [.text "SELECT ", .text " FROM ", .text "", .text ""]
      [.int 7, .fragment name, .fragment rows])
    let options : Options := .mapping 4
      [(.text "escape", .literalEscaper (.recordingStandard 3)),
        (.text "with_parameters", .value (.bool false)), (.text "timezone", .value (.text "+01"))]
    let context : Context :=
      { escape := .recordingStandard 3, withParameters := false, timezone := .text "+01" }
    let kinds := ["sql", "param", "sql", "sql", "ident", "lines", "clause", "raw"]
    (∀ f ∈ query.preorder 0, f.isBare = true) ∧
    session.Undisturbed query (session.evaluated? .own query options) ∧
    (query.preorder 0).map Fragment.kindName = kinds ∧
    (evaluate session.environment context query).answer =
      .ok (.result { sql := .text "SELECT 7 FROM \"t\" NULL 'b' WHERE a" }) ∧
    (∀ journal lines, (session.withJournal journal lines).perform (.render .own query options) =
      ((session.perform (.render .own query options)).1.withJournal journal
        (lines ++ (kinds.map context.record).flatMap (journal.write session.environment)),
      (session.perform (.render .own query options)).2)) ∧
    (session.perform (.render .own query options)).1.lines = kinds.map fun kindName =>
      (.console, .plain (" - sql_strings.evaluator.evaluator - DEBUG - Rendering " ++ kindName ++
        " fragment")) := by
  intro session name clause rows query options context kinds
  have hbare : ∀ f ∈ query.preorder 0, f.isBare = true := by decide
  have hkeeps : ∀ f ∈ query.preorder 0, f.keepsSeparator = true := by decide
  have hcontext : session.evaluated? .own query options = some context := rfl
  have hquiet : session.Undisturbed query (session.evaluated? .own query options) := by
    rw [hcontext]
    rintro _ ⟨⟩
    refine ⟨rfl, rfl, fun hpure => ?_, fun _ _ _ => ?_, fun hlines _ hchange => ?_⟩
    · exact LiteralEscaper.onlyCalls_recording 3 (trace_literal _ hpure) _
    · exact IdentifierEscaper.onlyCalls_standard _ _
    · exact absurd hchange (Fragment.not_grows hkeeps hlines _)
  have hkinds : (query.preorder 0).map Fragment.kindName = kinds := rfl
  have hanswer : (evaluate session.environment context query).answer =
      .ok (.result { sql := .text "SELECT 7 FROM \"t\" NULL 'b' WHERE a" }) := by rfl
  obtain ⟨hperform, -, htrace⟩ := perform_traces hbare hquiet
  obtain ⟨-, hrecords, hrendered⟩ := htrace context hcontext
  rw [hanswer] at hrendered
  have hkindRecords : (query.preorder 0).map (fun f => context.record f.kindName) =
      kinds.map context.record := by rw [← hkinds, List.map_map]; rfl
  rw [hrecords, hrendered, hkindRecords] at hperform
  refine ⟨hbare, hquiet, hkinds, hanswer, hperform, ?_⟩
  have hself : session.withJournal session.journal [] = session := rfl
  have hwrite : ∀ kindName, session.journal.write session.environment (context.record kindName) =
      [(.console, .plain (" - sql_strings.evaluator.evaluator - DEBUG - Rendering " ++ kindName ++
        " fragment"))] := by
    intro kindName
    have hhandlers : session.journal.handlersAt (context.record kindName).level =
        [⟨.console, false, debugLevel⟩] := rfl
    rw [Journal.write, hhandlers, List.flatMap_singleton, write_plain rfl]
  have hlines := hperform session.journal []
  rw [hself] at hlines
  rw [hlines, withJournal, List.nil_append, List.flatMap_map]
  simp only [hwrite]
  exact List.map_eq_flatMap.symm

/-- A handler that writes the settings into each record renders the fragments in them, which is
written down itself. A time zone that is also a separator changes while it takes up lines. A
function that renders a fragment has it written down among those of the tree. -/
theorem perform_traces_ne :
    let line (kindName : String) (withParameters : Bool) (timezone method : Json) : Target × Line :=
      (.console, .structured [("timestamp", .null), ("level", .text "DEBUG"),
        ("logger", .text "sql_strings.evaluator.evaluator"),
        ("message", .text ("Rendering " ++ kindName ++ " fragment")),
        ("module", .text "evaluator"), ("function", .text "to_sql"), ("line", .null),
        ("with_parameters", .bool withParameters), ("timezone", timezone), ("method", method)])
    let session : Session := { journal := {
      handlers := [⟨.console, true, debugLevel⟩], level := debugLevel } }
    let query : Value := .fragment (.template 0 .statement [.text "SELECT 1"] [])
    let method : Options := .mapping 1 [(.text "method", .value (.fragment (.raw (.text "x"))))]
    let separator : Value := .list 2 [.text "-"]
    let rows : Value := .fragment (.lines
      [.fragment (.raw (.text "a")), .fragment (.raw (.text "b"))] separator)
    let zone : Options := .mapping 3 [(.text "timezone", .value separator)]
    let now : Value → Value → Outcome Value := fun _ _ => do
      let rendered ← evaluate {} .inlined (.fragment (.raw (.text "now()")))
      let result ← rendered.expect
      pure result.sql
    let escape : Options := .mapping 4
      [(.text "escape", .literalEscaper (.custom 5 fun _ => now)),
        (.text "with_parameters", .value (.bool false))]
    let param : Value := .fragment (.parameter (.int 1))
    ((query.preorder 0).map Fragment.kindName = ["sql"] ∧
      (session.perform (.render .evaluate query method)).1.lines =
        [line "raw" false (.text "Z") .null, line "sql" true (.text "Z") (.text "x")]) ∧
    ((rows.preorder 0).map Fragment.kindName = ["lines", "raw", "raw"] ∧
      (session.perform (.render .evaluate rows zone)).1.lines =
        [line "lines" true (.array [.text "-"]) .null, line "raw" true (.array [.text "-"]) .null,
          line "raw" true (.array [.text "-", .text "a", .text "-", .text "a"]) .null]) ∧
    (param.preorder 0).map Fragment.kindName = ["param"] ∧
      (session.perform (.render .evaluate param escape)).1.lines =
        [line "param" false (.text "Z") .null, line "raw" false (.text "Z") .null] := by
  refine ⟨⟨rfl, rfl⟩, ⟨rfl, rfl⟩, rfl, rfl⟩

/-! ## Whole sessions -/

section

variable (session : Session) (journal : Journal) (lines : List (Target × Line))

private theorem bind_eq_map_bind {α β : Type} {onto : β → β} {x : Except Failure α}
    {f g : α → Except Failure β} (h : ∀ a, f a = (g a).map onto) :
    (x >>= f) = (x >>= g).map onto := by
  cases x with
  | error cause => rfl
  | ok a => exact h a

private theorem changeMapping_withJournal (name : String)
    (change : Entries Setting → Except Failure (Entries Setting)) :
    (session.withJournal journal lines).changeMapping name change =
      (session.changeMapping name change).map (·.withJournal journal lines) := by
  simp only [changeMapping, withJournal]
  split
  · rfl
  · exact bind_eq_map_bind fun _ => rfl
  · rfl

private theorem assign_withJournal (target : Value) (name : String) (value : Value) :
    (session.withJournal journal lines).assign target name value =
      (session.assign target name value).map (·.withJournal journal lines) := by
  simp only [assign]
  split
  · split
    · split
      · rfl
      · split <;> rfl
    · rfl
  · split
    · rfl
    · split <;> rfl
  · rfl

private theorem perform?_withJournal (step : Step) :
    (session.withJournal journal lines).perform? step =
      (session.perform? step).map fun after => (after.1.withJournal journal lines, after.2) := by
  have hhandout : ∀ step, (session.withJournal journal lines).handoutAt step =
      session.handoutAt step := fun _ => rfl
  cases step with
  | setOption name key setting =>
    simp only [perform?, changeMapping_withJournal]
    cases session.changeMapping name fun fields => .ok (fields.insert (.text key) setting) <;> rfl
  | removeOption name key =>
    simp only [perform?, changeMapping_withJournal]
    cases session.changeMapping name _ <;> rfl
  | replace name source changes =>
    simp only [perform?, withJournal]
    split
    · rfl
    · exact bind_eq_map_bind fun _ => rfl
  | normalize options => exact bind_eq_map_bind fun _ => rfl
  | pushBinding step value =>
    simp only [perform?, hhandout]
    apply bind_eq_map_bind
    intro handout
    cases handout with
    | result place => exact bind_eq_map_bind fun _ => rfl
    | value v => rfl
  | push name value =>
    simp only [perform?, value?, withJournal]
    split
    · rfl
    · rfl
    · exact bind_eq_map_bind fun _ => rfl
    · rfl
  | countRenders name =>
    simp only [perform?, value?, withJournal]
    split
    · rfl
    · next f _ =>
      show (session.rendersOf f).map _ = ((session.rendersOf f).map _).map _
      cases session.rendersOf f <;> rfl
    · rfl
  | compare left right => exact bind_eq_map_bind fun _ => rfl
  | compareResults left right => exact bind_eq_map_bind fun _ => rfl
  | kind value =>
    simp only [perform?]
    split
    · split <;> rfl
    · rfl
  | assign target field value =>
    simp only [perform?, assign_withJournal]
    cases session.assign target field value <;> rfl
  | name | nameOptions | takeCalls | render => rfl

end

/-- A step that renders nothing, or renders something bare and undisturbed. -/
def IsCalm (session : Session) : Step → Prop
  | .render manner target options => (∀ f ∈ target.preorder 0, f.isBare = true) ∧
      session.Undisturbed target (session.evaluated? manner target options)
  | _ => True

def AreCalm : Session → List Step → Prop
  | _, [] => True
  | session, step :: rest => session.IsCalm step ∧ (session.perform step).1.AreCalm rest

def replies : Session → List Step → List (Except Failure Reply)
  | _, [] => []
  | session, step :: rest => (session.perform step).2 :: (session.perform step).1.replies rest

theorem exists_perform_withJournal {step : Step} (h : session.IsCalm step) (journal : Journal)
    (lines : List (Target × Line)) :
    ∃ lines', (session.withJournal journal lines).perform step =
      ((session.perform step).1.withJournal journal lines', (session.perform step).2) := by
  cases hrender : step.isRender with
  | true =>
    cases step with
    | render manner target options => exact ⟨_, (perform_withJournal h.1 h.2).1 journal lines⟩
    | _ => cases hrender
  | false =>
    refine ⟨lines, ?_⟩
    have hother := perform?_withJournal session journal lines step
    cases hanswer : session.perform? step with
    | error cause =>
      rw [hanswer] at hother
      rw [perform_error hrender hother, perform_error hrender hanswer]
      rfl
    | ok after =>
      rw [hanswer] at hother
      rw [perform_ok hrender hother, perform_ok hrender hanswer]
      rfl

/-- The replies in a session are the same under any journal. -/
theorem replies_withJournal {steps : List Step} (h : session.AreCalm steps) (journal : Journal)
    (lines : List (Target × Line)) :
    (session.withJournal journal lines).replies steps = session.replies steps := by
  induction steps generalizing session lines with
  | nil => rfl
  | cons step rest ih =>
    obtain ⟨lines', hperform⟩ := exists_perform_withJournal h.1 journal lines
    rw [replies, replies, hperform, ih h.2]

end Session

end SqlFragments
