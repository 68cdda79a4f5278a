import Mathlib.Data.List.Forall2
import SqlFragments.Proofs.Render.Apart
import SqlFragments.Proofs.Session.Reply

/-!
# Sessions with lists of the user

Two sessions in which a user holds lists that may have other members in the one than in the other.
While these lists stand nowhere but under names, renders do the same in both, and put them nowhere
else.
-/

namespace SqlFragments

open Outcome

variable {lists late : Set Label}

def Handout.Apart (lists : Set Label) : Handout → Prop
  | result _ => True
  | value v => v.Apart lists

def Setting.Unmoved (lists : Set Label) (setting : Setting) : Prop :=
  ∀ label ∈ lists, ∀ items, setting.apply (.members label items) = setting

namespace Session

/-- Some lists stand in nothing that a session remembers or has handed out. -/
structure Apart (lists : Set Label) (session : Session) : Prop where
  slots : ∀ slot ∈ session.slots, ∀ field ∈ slot.2.fields, field.2.Unmoved lists
  results : ∀ r ∈ session.results, r.Apart lists
  handouts : ∀ handout ∈ session.handouts, handout.Apart lists
  grown : ∀ change ∈ session.grown, change.Apart lists

end Session

/-- A name in two sessions. It stands for the same thing in both, apart from some lists, or for one
of the lists; only those that were appended to late may have other members. -/
inductive Held (lists late : Set Label) : String × Value → String × Value → Prop
  | value (name : String) {v : Value} (hv : v.Apart lists) : Held lists late (name, v) (name, v)
  | list (name : String) {label : Label} {items others : List Value} (hlabel : label ∈ lists)
    (hitems : ∀ v ∈ items, v.Apart lists) (hothers : ∀ v ∈ others, v.Apart lists)
    (hsame : label ∉ late → others = items) :
    Held lists late (name, .list label items) (name, .list label others)

namespace Session

/-- Two sessions that differ in what is named, in named options and in the calls that were put down
alone. -/
inductive Beside (lists late : Set Label) : Session → Session → Prop
  | mk {session : Session} {names : List (String × Value)} {options : List (String × Options)}
    {calls : List Event} (apart : session.Apart lists)
    (held : List.Forall₂ (Held lists late) session.names names) :
    Beside lists late session
      { session with names := names, options := options, calls := calls }

end Session

/-! ## Changes -/

section

variable {change : Change}

theorem Result.Apart.apply (hchange : change.Apart lists) {r : Result} (h : r.Apart lists) :
    (r.apply change).Apart lists where
  sql := h.sql.apply hchange
  bindings := List.forall_mem_map.2 fun v hv => (h.bindings v hv).apply hchange
  method := h.method.apply hchange
  hooks := List.forall_mem_map.2 fun hook hhook => (h.hooks hook hhook).apply hchange

theorem Rendered.Apart.apply (hchange : change.Apart lists) {rendered : Rendered}
    (h : rendered.Apart lists) : (rendered.apply change).Apart lists := by
  cases rendered with
  | result r => exact Result.Apart.apply hchange h
  | other v => exact Value.Apart.apply hchange h

private theorem apply_hooks {hooks : List (String × Value)}
    (h : ∀ hook ∈ hooks, hook.2.apply change = hook.2) :
    hooks.map (fun (name, v) => (name, v.apply change)) = hooks :=
  map_eq_self_iff.2 fun hook hhook => Prod.ext rfl (h hook hhook)

theorem Result.Apart.unmoved {r : Result} (h : r.Apart lists) {label : Label}
    (hlabel : label ∈ lists) (items : List Value) : r.apply (.members label items) = r := by
  obtain ⟨sql, bindings, method, hooks⟩ := r
  have hbindings : bindings.map (·.apply (.members label items)) = bindings :=
    map_eq_self_iff.2 fun v hv => h.bindings v hv label hlabel items
  have hhooks := apply_hooks fun hook hhook => h.hooks hook hhook label hlabel items
  rw [Result.apply, h.sql label hlabel items, h.method label hlabel items, hbindings, hhooks]

private theorem apply_held (hchange : change.Apart lists) {label : Label} (hlabel : label ∈ lists)
    (items : List Value) :
    (Value.list label items).apply change = .list label (items.map (·.apply change)) := by
  cases change with
  | members l new =>
    have hne : label ≠ l := fun h => hchange.1 (h ▸ hlabel)
    simp [Value.apply, Change.here, hne, Value.applyEach_eq_map]
  | bytes l data => simp [Value.apply, Change.here, Value.applyEach_eq_map]
  | entries | field => cases hchange

theorem Held.apply (hchange : change.Apart lists) {entry other : String × Value}
    (h : Held lists late entry other) :
    Held lists late (entry.1, entry.2.apply change) (other.1, other.2.apply change) := by
  cases h with
  | value name hv => exact .value name (hv.apply hchange)
  | list name hlabel hitems hothers hsame =>
    rw [apply_held hchange hlabel, apply_held hchange hlabel]
    refine .list name hlabel ?_ ?_ fun hlate => congrArg _ (hsame hlate)
    · exact List.forall_mem_map.2 fun v hv => (hitems v hv).apply hchange
    · exact List.forall_mem_map.2 fun v hv => (hothers v hv).apply hchange

theorem Setting.Apart.unmoved {setting : Setting} (h : setting.Apart lists) :
    setting.Unmoved lists := by
  cases setting with
  | value v => exact fun label hlabel items => congrArg Setting.value (h label hlabel items)
  | _ => exact fun _ _ _ => rfl

theorem Setting.Unmoved.apply (hchange : change.Apart lists) {setting : Setting}
    (h : setting.Unmoved lists) : (setting.apply change).Unmoved lists := by
  cases setting with
  | value v =>
    have hv : v.Apart lists := fun label hlabel items => Setting.value.inj (h label hlabel items)
    exact fun label hlabel items => congrArg Setting.value (hv.apply hchange label hlabel items)
  | _ => exact fun _ _ _ => rfl

end

namespace Session

variable {s t : Session}

/-! ## Memory -/

namespace Apart

theorem keep (h : s.Apart lists) {r : Result} (hr : r.Apart lists) : (s.keep r).1.Apart lists :=
  { h with results := List.forall_mem_append.2 ⟨h.results, List.forall_mem_singleton.2 hr⟩ }

theorem remember (h : s.Apart lists) (label : Label) {fields : Entries Setting}
    (hfields : ∀ field ∈ fields, field.2.Unmoved lists) (place : Nat) :
    (s.remember label fields place).Apart lists :=
  { h with
    slots := List.forall_mem_cons.2
      ⟨hfields, fun slot hslot => h.slots slot (List.mem_of_mem_filter hslot)⟩ }

theorem change {change : Change} (hchange : change.Apart lists) (h : s.Apart lists) :
    (s.change change).Apart lists where
  slots := List.forall_mem_map.2 fun slot hslot =>
    List.forall_mem_map.2 fun field hfield => (h.slots slot hslot field hfield).apply hchange
  results := List.forall_mem_map.2 fun r hr => (h.results r hr).apply hchange
  handouts := by
    refine List.forall_mem_map.2 fun handout hhandout => ?_
    have hapart := h.handouts handout hhandout
    cases handout with
    | result place => trivial
    | value v => exact Value.Apart.apply hchange hapart
  grown := h.grown

theorem settle {α : Type} {P : α → Prop} {apply : Change → α → α}
    (happly : ∀ change a, change.Apart lists → P a → P (apply change a)) (h : s.Apart lists)
    {a : α} (ha : P a) : P (s.settle apply a) := by
  unfold Session.settle
  have hgrown := h.grown
  generalize s.grown = changes at hgrown
  induction changes generalizing a with
  | nil => exact ha
  | cons change rest ih =>
    rw [List.forall_mem_cons] at hgrown
    exact ih (happly change a hgrown.1 ha) hgrown.2

theorem settle_value (h : s.Apart lists) {v : Value} (hv : v.Apart lists) :
    (s.settle Value.apply v).Apart lists :=
  h.settle (fun _ _ hchange hv => hv.apply hchange) hv

theorem settle_result (h : s.Apart lists) {r : Result} (hr : r.Apart lists) :
    (s.settle Result.apply r).Apart lists :=
  h.settle (fun _ _ hchange hr => hr.apply hchange) hr

theorem environment (h : s.Apart lists) : s.environment.Apart lists := by
  intro label sql hsql
  obtain ⟨place, _, hplace⟩ := map_eq_ok.1 hsql
  obtain ⟨r, hr, rfl⟩ := Option.map_eq_some_iff.1 hplace
  obtain ⟨place, _, hr⟩ := Option.bind_eq_some_iff.1 hr
  exact (h.results r (List.mem_of_getElem? hr)).sql

end Apart

/-! ## Events -/

theorem Beside.extend (h : Beside lists late s t) {separator added : Value}
    (hseparator : separator.Apart lists) (hadded : added.Apart lists) :
    Beside lists late (s.extend separator added) (t.extend separator added) := by
  obtain ⟨hs, hheld⟩ := h
  have hsettled : ∀ names options calls,
      ({ s with names := names, options := options, calls := calls } : Session).settle Value.apply =
        s.settle Value.apply := fun _ _ _ => rfl
  simp only [Session.extend, hsettled]
  cases hgrowth : (s.settle Value.apply separator).growth? (s.settle Value.apply added) with
  | none => exact ⟨hs, hheld⟩
  | some change =>
    have hchange := (hs.settle_value hseparator).growth (hs.settle_value hadded) hgrowth
    refine ⟨{ hs.change hchange with
      grown := List.forall_mem_append.2 ⟨hs.grown, List.forall_mem_singleton.2 hchange⟩ }, ?_⟩
    exact List.rel_map (fun _ _ h => h.apply hchange) hheld

def Keeps (lists late : Set Label) (announce : Session → Event → Session) : Prop :=
  ∀ s t kindName withParameters timezone method, Beside lists late s t →
    timezone.Apart lists → method.Apart lists →
    Beside lists late (announce s (.rendering kindName withParameters timezone method))
      (announce t (.rendering kindName withParameters timezone method))

mutual

theorem beside_note {announce : Session → Event → Session} (hannounce : Keeps lists late announce)
    (event : Event) (hevent : event.Apart lists) {s t : Session} (h : Beside lists late s t) :
    Beside lists late (note announce s event) (note announce t event) := by
  match event with
  | .rendering kindName withParameters timezone method =>
    cases hevent with
    | rendering _ _ htimezone hmethod =>
      have hbeside := h
      obtain ⟨hs, _⟩ := h
      exact hannounce _ _ _ _ _ _ hbeside (hs.settle_value htimezone) (hs.settle_value hmethod)
  | .literalEscaped value timezone =>
    obtain ⟨hs, hheld⟩ := h
    exact ⟨{ hs with }, hheld⟩
  | .identifierEscaped name =>
    obtain ⟨hs, hheld⟩ := h
    exact ⟨{ hs with }, hheld⟩
  | .leafRendered label =>
    obtain ⟨hs, hheld⟩ := h
    exact ⟨{ hs with }, hheld⟩
  | .extended separator added =>
    cases hevent with
    | extended hseparator hadded => exact h.extend hseparator hadded
  | .inlined label trace result =>
    cases hevent with
    | inlined _ htrace hresult =>
      have hstored : t.stored? label (inlinedFields []) = s.stored? label (inlinedFields []) := by
        obtain ⟨_, _⟩ := h
        rfl
      rw [Session.note, Session.note, hstored]
      split
      · have hnoted := beside_noteAll hannounce trace htrace h
        cases result with
        | none => exact hnoted
        | some r =>
          have hfields : ∀ field ∈ inlinedFields [], field.2.Unmoved lists :=
            List.forall_mem_singleton.2 fun _ _ _ => rfl
          simp only
          generalize noteAll announce s trace = s' at hnoted
          generalize noteAll announce t trace = t' at hnoted
          obtain ⟨hs, hheld⟩ := hnoted
          have hkept := hs.keep (hs.settle_result (hresult r rfl))
          exact ⟨hkept.remember label hfields _, hheld⟩
      · exact h
termination_by structural event

theorem beside_noteAll {announce : Session → Event → Session}
    (hannounce : Keeps lists late announce) (trace : List Event)
    (htrace : ∀ event ∈ trace, event.Apart lists) {s t : Session} (h : Beside lists late s t) :
    Beside lists late (noteAll announce s trace) (noteAll announce t trace) := by
  match trace with
  | [] => exact h
  | event :: rest =>
    rw [List.forall_mem_cons] at htrace
    exact beside_noteAll hannounce rest htrace.2 (beside_note hannounce event htrace.1 h)
termination_by structural trace

end

/-! ## The journal -/

private theorem beside_writeDown {note : Session → List Event → Session}
    (hnote : ∀ s t trace, Beside lists late s t → (∀ event ∈ trace, event.Apart lists) →
      Beside lists late (note s trace) (note t trace)) {kindName : String} {withParameters : Bool}
    {timezone method : Value} (htimezone : timezone.Apart lists) (hmethod : method.Apart lists)
    {record : Journal.Record} (hrecord : Journal.Record.ofEvent? (.rendering kindName
      withParameters timezone method) = some record) (handlers : List Journal.Handler)
    (h : Beside lists late s t) :
    Beside lists late (writeDown note record s handlers) (writeDown note record t handlers) := by
  induction handlers generalizing s t with
  | nil => exact h
  | cons handler rest ih =>
    have henvironment : t.environment = s.environment ∧ s.environment.Apart lists := by
      obtain ⟨hs, _⟩ := h
      exact ⟨rfl, hs.environment⟩
    have hformat := apart_format henvironment.2 handler htimezone hmethod hrecord
    have hnoted := hnote s t _ h hformat.trace
    rw [writeDown, writeDown, henvironment.1]
    apply ih
    cases (handler.format s.environment record).answer with
    | error cause => exact hnoted
    | ok line =>
      simp only
      generalize note s (handler.format s.environment record).trace = s' at hnoted
      generalize note t (handler.format s.environment record).trace = t' at hnoted
      obtain ⟨hs, hheld⟩ := hnoted
      exact ⟨{ hs with }, hheld⟩

private theorem keeps_announceWith {note : Session → List Event → Session}
    (hnote : ∀ s t trace, Beside lists late s t → (∀ event ∈ trace, event.Apart lists) →
      Beside lists late (note s trace) (note t trace)) :
    Keeps lists late (announceWith note) := by
  intro s t kindName withParameters timezone method h htimezone hmethod
  have hjournal : t.journal = s.journal := by
    obtain ⟨_, _⟩ := h
    rfl
  simp only [announceWith, Journal.Record.ofEvent?, hjournal]
  exact beside_writeDown hnote htimezone hmethod rfl _ h

theorem Beside.witness (h : Beside lists late s t) {trace : List Event}
    (htrace : ∀ event ∈ trace, event.Apart lists) :
    Beside lists late (s.witness trace) (t.witness trace) := by
  have hinner : Keeps lists late (announceWith fun session _ => session) :=
    keeps_announceWith fun _ _ _ h _ => h
  have houter : Keeps lists late
      (announceWith (Session.noteAll (announceWith fun session _ => session))) :=
    keeps_announceWith fun _ _ trace h htrace => beside_noteAll hinner trace htrace h
  exact beside_noteAll houter trace htrace h

theorem Beside.observe (h : Beside lists late s t) {α : Type} {x : Outcome α}
    (htrace : ∀ event ∈ x.trace, event.Apart lists) :
    Beside lists late (s.observe x).1 (t.observe x).1 := by
  have hstart : Beside lists late { s with grown := [] } { t with grown := [] } := by
    obtain ⟨hs, hheld⟩ := h
    exact ⟨{ hs with grown := fun _ hchange => by cases hchange }, hheld⟩
  exact hstart.witness htrace

/-! ## Renders -/

/-- What a render leaves and answers in two sessions: the sessions stay beside each other, and the
answers are the same and of some sort. -/
inductive Agree (lists late : Set Label) {α : Type} (P : α → Prop) :
    Session × Except Failure α → Session × Except Failure α → Prop
  | mk {s t : Session} {answer : Except Failure α} (beside : Beside lists late s t)
    (sort : ∀ a, answer = .ok a → P a) : Agree lists late P (s, answer) (t, answer)

variable {target : Value} {options : Options}

theorem Options.Apart.normalize (h : options.Apart lists) {context : Context}
    (hcontext : options.normalize = .ok context) : context.Apart lists := by
  obtain ⟨fields, hfields, rfl⟩ := map_eq_ok.1 hcontext
  exact Context.apart_ofFields (h fields hfields)

theorem Beside.evaluateNow (h : Beside lists late s t) (htarget : target.Apart lists)
    (hoptions : options.Apart lists) :
    Agree lists late (Rendered.Apart lists) (s.evaluateNow target options)
      (t.evaluateNow target options) := by
  unfold Session.evaluateNow
  cases hcontext : options.normalize with
  | error cause => exact ⟨h, nofun⟩
  | ok context =>
    have henvironment : t.environment = s.environment ∧ s.environment.Apart lists := by
      obtain ⟨hs, _⟩ := h
      exact ⟨rfl, hs.environment⟩
    have hevaluate := Value.apart_evaluate target htarget henvironment.2
      (Options.Apart.normalize hoptions hcontext)
    have hobserved := h.observe hevaluate.trace
    simp only [henvironment.1]
    generalize evaluate s.environment context target = x at hevaluate hobserved
    have hsettled : ∀ rendered : Rendered, (t.observe x).1.settle Rendered.apply rendered =
        (s.observe x).1.settle Rendered.apply rendered ∧
        (rendered.Apart lists →
          ((s.observe x).1.settle Rendered.apply rendered).Apart lists) := by
      intro rendered
      generalize (s.observe x).1 = s' at hobserved
      generalize (t.observe x).1 = t' at hobserved
      obtain ⟨hs, _⟩ := hobserved
      exact ⟨rfl, hs.settle fun _ _ hchange h => h.apply hchange⟩
    have hsame : (t.observe x).1.settle Rendered.apply = (s.observe x).1.settle Rendered.apply :=
      funext fun rendered => (hsettled rendered).1
    show Agree lists late (Rendered.Apart lists)
      ((s.observe x).1, x.answer.map fun r => (s.observe x).1.settle Rendered.apply r)
      ((t.observe x).1, x.answer.map fun r => (t.observe x).1.settle Rendered.apply r)
    rw [hsame]
    refine ⟨hobserved, fun settled hsettle => ?_⟩
    obtain ⟨rendered, hrendered, rfl⟩ := map_eq_ok.1 hsettle
    exact (hsettled rendered).2 (hevaluate.answer rendered hrendered)

theorem Beside.evaluateAndKeep (h : Beside lists late s t) (htarget : target.Apart lists)
    (hoptions : options.Apart lists) :
    Agree lists late (Handout.Apart lists) (s.evaluateAndKeep target options)
      (t.evaluateAndKeep target options) := by
  have hnow := h.evaluateNow htarget hoptions
  unfold Session.evaluateAndKeep
  generalize s.evaluateNow target options = x at hnow
  generalize t.evaluateNow target options = y at hnow
  obtain @⟨_, _, answer, hbeside, hsort⟩ := hnow
  cases answer with
  | error cause => exact ⟨hbeside, nofun⟩
  | ok rendered =>
    have hrendered := hsort rendered rfl
    obtain ⟨hs, hheld⟩ := hbeside
    cases rendered with
    | result r => exact ⟨⟨hs.keep hrendered, hheld⟩, fun _ ha => by cases ha; trivial⟩
    | other v => exact ⟨⟨hs, hheld⟩, fun _ ha => by cases ha; exact hrendered⟩

theorem Beside.renderTemplate (h : Beside lists late s t) (label : Label)
    (htarget : target.Apart lists) {fields : Entries Setting}
    (hfields : ∀ field ∈ fields, field.2.Apart lists) :
    Agree lists late (Handout.Apart lists) (s.renderTemplate label target fields)
      (t.renderTemplate label target fields) := by
  have hstored : t.stored? label fields = s.stored? label fields := by
    obtain ⟨_, _⟩ := h
    rfl
  have hoptions : (Options.mapping 0 fields).Apart lists := by
    intro others hothers
    cases hothers
    exact hfields
  have hkept := h.evaluateAndKeep htarget hoptions
  unfold Session.renderTemplate
  rw [hstored]
  split
  · exact ⟨h, nofun⟩
  · exact ⟨h, fun _ ha => by cases ha; trivial⟩
  · generalize s.evaluateAndKeep target (.mapping 0 fields) = x at hkept
    generalize t.evaluateAndKeep target (.mapping 0 fields) = y at hkept
    obtain @⟨_, _, answer, hbeside, hsort⟩ := hkept
    cases answer with
    | error cause => exact ⟨hbeside, nofun⟩
    | ok handout =>
      cases handout with
      | value v => exact ⟨hbeside, hsort⟩
      | result place =>
        obtain ⟨hs, hheld⟩ := hbeside
        have hunmoved : ∀ field ∈ fields, field.2.Unmoved lists :=
          fun field hfield => (hfields field hfield).unmoved
        exact ⟨⟨hs.remember label hunmoved place, hheld⟩, hsort⟩

theorem Beside.renderFragment (h : Beside lists late s t) (htarget : target.Apart lists)
    (hoptions : options.Apart lists) :
    Agree lists late (Handout.Apart lists) (s.renderFragment target options)
      (t.renderFragment target options) := by
  unfold Session.renderFragment
  split
  · next label form strings values =>
    cases hfields : options.fields with
    | error cause => exact ⟨h, fun _ hok => by cases hok⟩
    | ok fields => exact h.renderTemplate label htarget (hoptions fields hfields)
  · split
    · exact ⟨h, fun _ hok => by cases hok⟩
    · exact h.evaluateAndKeep htarget hoptions
  · exact ⟨h, fun _ hok => by cases hok⟩

theorem Beside.renderInlined (h : Beside lists late s t) (htarget : target.Apart lists)
    (hoptions : options.Apart lists) :
    Agree lists late (Handout.Apart lists) (s.renderInlined target options)
      (t.renderInlined target options) := by
  unfold Session.renderInlined
  split
  · next f =>
    split
    · exact ⟨h, fun _ hok => by cases hok⟩
    · cases hfields : options.fields with
      | error cause => exact ⟨h, fun _ hok => by cases hok⟩
      | ok fields =>
        have hinlined := apart_inlinedFields (hoptions fields hfields)
        simp only
        split
        · exact h.renderTemplate _ htarget hinlined
        · split
          · exact ⟨h, fun _ hok => by cases hok⟩
          · apply h.evaluateAndKeep htarget
            intro others hothers
            cases hothers
            exact hinlined
  · exact ⟨h, fun _ hok => by cases hok⟩

private theorem agree_handOut {x y : Session × Except Failure Handout}
    (h : Agree lists late (Handout.Apart lists) x y) :
    Agree lists late (fun answer => answer.2.Apart lists) (x.1.handOut x.2) (y.1.handOut y.2) := by
  obtain ⟨⟨hs, hheld⟩, hsort⟩ := h
  refine ⟨⟨hs, hheld⟩, fun out hout => ?_⟩
  obtain ⟨handout, hhandout, hout⟩ := bind_eq_ok.1 hout
  obtain ⟨reply, _, hout⟩ := bind_eq_ok.1 hout
  cases hout
  exact hsort handout hhandout

private theorem agree_handOutText {x y : Session × Except Failure Handout}
    (h : Agree lists late (Handout.Apart lists) x y) :
    Agree lists late (fun answer => answer.2.Apart lists) (x.1.handOutText x.2)
      (y.1.handOutText y.2) := by
  obtain ⟨⟨hs, hheld⟩, hsort⟩ := h
  refine ⟨⟨hs, hheld⟩, fun out hout => ?_⟩
  obtain ⟨handout, hhandout, hout⟩ := bind_eq_ok.1 hout
  cases handout with
  | value v => cases hout
  | result place =>
    obtain ⟨r, hr, hout⟩ := bind_eq_ok.1 hout
    cases hout
    unfold Session.resultAt at hr
    split at hr
    · next result hresult =>
      cases hr
      exact (hs.results _ (List.mem_of_getElem? hresult)).sql
    · cases hr

private theorem agree_inspect {x y : Session × Except Failure Rendered}
    (h : Agree lists late (Rendered.Apart lists) x y) :
    Agree lists late (fun answer => answer.2.Apart lists)
      (x.1, do return handOutValue (.text (← (← x.2).inspect)))
      (y.1, do return handOutValue (.text (← (← y.2).inspect))) := by
  obtain ⟨hbeside, _⟩ := h
  refine ⟨hbeside, fun out hout => ?_⟩
  obtain ⟨rendered, _, hout⟩ := bind_eq_ok.1 hout
  obtain ⟨text, _, hout⟩ := bind_eq_ok.1 hout
  cases hout
  exact Value.apart_text text

/-- A render does the same in both sessions, and leaves them beside each other. -/
theorem Beside.render (h : Beside lists late s t) (manner : Manner) (htarget : target.Apart lists)
    (hoptions : options.Apart lists) :
    Agree lists late (fun answer => answer.2.Apart lists) (s.render manner target options)
      (t.render manner target options) := by
  have hplain : ∀ text : String, (handOutValue (.text text)).2.Apart lists :=
    fun text => Value.apart_text text
  cases manner with
  | evaluate => exact agree_handOut (h.evaluateAndKeep htarget hoptions)
  | own => exact agree_handOut (h.renderFragment htarget hoptions)
  | inlined => exact agree_handOutText (h.renderInlined htarget hoptions)
  | plainText =>
    have henvironment : t.environment = s.environment ∧ s.environment.Apart lists := by
      obtain ⟨hs, _⟩ := h
      exact ⟨rfl, hs.environment⟩
    have htrace := (Value.apart_plainText target htarget henvironment.2).trace
    simp only [Session.render, henvironment.1]
    refine ⟨h.observe htrace, fun out hout => ?_⟩
    obtain ⟨text, _, rfl⟩ := map_eq_ok.1 hout
    exact hplain text
  | inspect =>
    refine ⟨h, fun out hout => ?_⟩
    obtain ⟨text, _, rfl⟩ := map_eq_ok.1 hout
    exact hplain text
  | inspectResult => exact agree_inspect (h.evaluateNow htarget hoptions)

theorem Beside.perform_render (h : Beside lists late s t) (manner : Manner)
    (htarget : target.Apart lists) (hoptions : options.Apart lists) :
    Beside lists late (s.perform (.render manner target options)).1
        (t.perform (.render manner target options)).1 ∧
      (t.perform (.render manner target options)).2 =
        (s.perform (.render manner target options)).2 := by
  have hrender := h.render manner htarget hoptions
  rw [Session.perform_render, Session.perform_render]
  generalize s.render manner target options = x at hrender
  generalize t.render manner target options = y at hrender
  obtain @⟨_, _, answer, ⟨hs, hheld⟩, hsort⟩ := hrender
  have hhandout : (handoutOf answer).Apart lists := by
    cases answer with
    | error cause => exact Value.apart_null
    | ok out => exact hsort out rfl
  have hhandouts := List.forall_mem_append.2 ⟨hs.handouts, List.forall_mem_singleton.2 hhandout⟩
  exact ⟨⟨{ hs with handouts := hhandouts }, hheld⟩, rfl⟩

end Session

end SqlFragments
