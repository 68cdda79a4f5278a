import SqlFragments.Proofs.Outcome
import SqlFragments.Proofs.Session.Reply

/-!
# Sessions side by side

Two sessions that differ in their memory alone do the same, step by step, as long as what is done
reads nothing from memory in which they differ. What has to be kept for that is said once, as a
relation between memories.
-/

namespace SqlFragments

open Outcome

/-- What changes in place can reach and renders go by: the slots of templates, the results that
were handed out, the named options, and the changes of the present render. -/
structure Memory where
  slots : List (Label × Slot)
  results : List Result
  options : List (String × Options)
  grown : List Change

namespace Session

def memory (session : Session) : Memory where
  slots := session.slots
  results := session.results
  options := session.options
  grown := session.grown

def withMemory (session : Session) (memory : Memory) : Session :=
  { session with
    slots := memory.slots
    results := memory.results
    options := memory.options
    grown := memory.grown }

/-- Two sessions that differ in their memory alone, where the memories are related. -/
def Related (R : Memory → Memory → Prop) (session other : Session) : Prop :=
  ∃ memory, R session.memory memory ∧ other = session.withMemory memory

/-- A relation between memories that is kept by what happens in renders. It may be kept by some
events only, and by renders of some templates only. -/
structure Simulation (R : Memory → Memory → Prop) (Admits : Event → Prop)
    (Visible : Label → Prop) : Prop where
  grown {m m' : Memory} (h : R m m') : m'.grown = m.grown
  restart {m m' : Memory} (h : R m m') : R { m with grown := [] } { m' with grown := [] }
  places {m m' : Memory} (h : R m m') : m'.results.length = m.results.length
  keep {m m' : Memory} (h : R m m') (r : Result) :
    R { m with results := m.results ++ [r] } { m' with results := m'.results ++ [r] }
  stored {session other : Session} (h : session.Related R other) {label : Label}
    (hlabel : Visible label) (fields : Entries Setting) :
    other.stored? label fields = session.stored? label fields
  remember {session other : Session} (h : session.Related R other) {label : Label}
    (hlabel : Visible label) (fields : Entries Setting) (place : Nat) :
    R (session.remember label fields place).memory (other.remember label fields place).memory
  inlined {label : Label} {trace : List Event} {result : Option Result}
    (hevent : Admits (.inlined label trace result)) :
    Visible label ∧ ∀ event ∈ trace, Admits event
  extended {session other : Session} (h : session.Related R other) {separator added : Value}
    (hevent : Admits (.extended separator added)) (change : Change) :
    R { (session.change change).memory with grown := session.grown ++ [change] }
      { (other.change change).memory with grown := session.grown ++ [change] }
  format {session other : Session} (h : session.Related R other) {kindName : String}
    {withParameters : Bool} {timezone method : Value}
    (hevent : Admits (.rendering kindName withParameters timezone method))
    {record : Journal.Record} (hrecord : Journal.Record.ofEvent? (.rendering kindName
      withParameters (session.settle Value.apply timezone) (session.settle Value.apply method)) =
      some record) {later later' : Session} (hlater : later.Related R later')
    (handler : Journal.Handler) :
    handler.format later'.environment record = handler.format later.environment record ∧
      ∀ event ∈ (handler.format later.environment record).trace, Admits event

variable {R : Memory → Memory → Prop} {Admits : Event → Prop} {Visible : Label → Prop}
  {session other : Session}

/-! ## Events -/

namespace Simulation

theorem settle_eq (sim : Simulation R Admits Visible) (h : session.Related R other) {α : Type}
    (apply : Change → α → α) (a : α) : other.settle apply a = session.settle apply a := by
  obtain ⟨memory, hmemory, rfl⟩ := h
  have hgrown := sim.grown hmemory
  show memory.grown.foldl _ a = session.grown.foldl _ a
  rw [hgrown]
  rfl

theorem related_keep (sim : Simulation R Admits Visible) (h : session.Related R other)
    (r : Result) : (session.keep r).1.Related R (other.keep r).1 ∧
      (other.keep r).2 = (session.keep r).2 := by
  obtain ⟨memory, hmemory, rfl⟩ := h
  exact ⟨⟨_, sim.keep hmemory r, rfl⟩, sim.places hmemory⟩

theorem related_remember (sim : Simulation R Admits Visible) (h : session.Related R other)
    {label : Label} (hlabel : Visible label) (fields : Entries Setting) (place : Nat) :
    (session.remember label fields place).Related R (other.remember label fields place) := by
  have hremember := sim.remember h hlabel fields place
  obtain ⟨memory, hmemory, rfl⟩ := h
  exact ⟨_, hremember, rfl⟩

theorem related_extend (sim : Simulation R Admits Visible) (h : session.Related R other)
    {separator added : Value} (hevent : Admits (.extended separator added)) :
    (session.extend separator added).Related R (other.extend separator added) := by
  cases hgrowth : (session.settle Value.apply separator).growth?
      (session.settle Value.apply added) with
  | none => simpa only [extend, sim.settle_eq h, hgrowth] using h
  | some change =>
    have hextended := sim.extended h hevent change
    simp only [extend, sim.settle_eq h, hgrowth]
    obtain ⟨memory, hmemory, rfl⟩ := h
    have hgrown : memory.grown = session.grown := sim.grown hmemory
    refine ⟨_, hextended, ?_⟩
    simp only [withMemory, Session.memory, Session.change, hgrown]

def Announces (R : Memory → Memory → Prop) (Admits : Event → Prop)
    (announce : Session → Event → Session) : Prop :=
  ∀ session other kindName withParameters timezone method, session.Related R other →
    Admits (.rendering kindName withParameters timezone method) →
    (announce session (.rendering kindName withParameters (session.settle Value.apply timezone)
      (session.settle Value.apply method))).Related R
      (announce other (.rendering kindName withParameters (session.settle Value.apply timezone)
        (session.settle Value.apply method)))

mutual

theorem related_note (sim : Simulation R Admits Visible)
    {announce : Session → Event → Session} (hannounce : Announces R Admits announce)
    (event : Event) (hevent : Admits event) {session other : Session}
    (h : session.Related R other) :
    (note announce session event).Related R (note announce other event) := by
  match event with
  | .rendering kindName withParameters timezone method =>
    rw [note, note, sim.settle_eq h, sim.settle_eq h]
    exact hannounce session other _ _ _ _ h hevent
  | .literalEscaped value timezone =>
    rw [note, note, sim.settle_eq h, sim.settle_eq h]
    obtain ⟨memory, hmemory, rfl⟩ := h
    exact ⟨memory, hmemory, rfl⟩
  | .identifierEscaped name =>
    rw [note, note, sim.settle_eq h]
    obtain ⟨memory, hmemory, rfl⟩ := h
    exact ⟨memory, hmemory, rfl⟩
  | .leafRendered label =>
    obtain ⟨memory, hmemory, rfl⟩ := h
    exact ⟨memory, hmemory, rfl⟩
  | .extended separator added => exact sim.related_extend h hevent
  | .inlined label trace result =>
    obtain ⟨hlabel, htrace⟩ := sim.inlined hevent
    rw [note, note, sim.stored h hlabel]
    split
    · have hnoted := related_noteAll sim hannounce trace htrace h
      cases result with
      | none => exact hnoted
      | some r =>
        have hkept := sim.related_keep hnoted
          ((noteAll announce session trace).settle Result.apply r)
        simp only [sim.settle_eq hnoted, hkept.2]
        exact sim.related_remember hkept.1 hlabel (inlinedFields []) _
    · exact h
termination_by structural event

theorem related_noteAll (sim : Simulation R Admits Visible)
    {announce : Session → Event → Session} (hannounce : Announces R Admits announce)
    (trace : List Event) (htrace : ∀ event ∈ trace, Admits event) {session other : Session}
    (h : session.Related R other) :
    (noteAll announce session trace).Related R (noteAll announce other trace) := by
  match trace with
  | [] => exact h
  | event :: rest =>
    rw [List.forall_mem_cons] at htrace
    have hfirst := related_note sim hannounce event htrace.1 h
    exact related_noteAll sim hannounce rest htrace.2 hfirst
termination_by structural trace

end

/-! ## The journal -/

def Notes (R : Memory → Memory → Prop) (Admits : Event → Prop)
    (note : Session → List Event → Session) : Prop :=
  ∀ session other trace, session.Related R other → (∀ event ∈ trace, Admits event) →
    (note session trace).Related R (note other trace)

private theorem related_writeDown {note : Session → List Event → Session}
    (hnote : Notes R Admits note) {record : Journal.Record}
    (hformat : ∀ session other : Session, session.Related R other → ∀ handler : Journal.Handler,
      handler.format other.environment record = handler.format session.environment record ∧
        ∀ event ∈ (handler.format session.environment record).trace, Admits event)
    (handlers : List Journal.Handler) (h : session.Related R other) :
    (writeDown note record session handlers).Related R (writeDown note record other handlers) := by
  induction handlers generalizing session other with
  | nil => exact h
  | cons handler rest ih =>
    obtain ⟨heq, htrace⟩ := hformat session other h handler
    have hnoted := hnote _ _ _ h htrace
    rw [writeDown, writeDown, heq]
    apply ih
    cases (handler.format session.environment record).answer with
    | error cause => exact hnoted
    | ok line =>
      obtain ⟨memory, hmemory, hother⟩ := hnoted
      refine ⟨memory, hmemory, ?_⟩
      simp only [hother]
      rfl

private theorem announces_announceWith (sim : Simulation R Admits Visible)
    {note : Session → List Event → Session} (hnote : Notes R Admits note) :
    Announces R Admits (announceWith note) := by
  intro session other kindName withParameters timezone method h hevent
  have hjournal : other.journal = session.journal := by
    obtain ⟨memory, _, rfl⟩ := h
    rfl
  unfold announceWith
  rw [hjournal]
  cases hrecord : Journal.Record.ofEvent? (.rendering kindName withParameters
      (session.settle Value.apply timezone) (session.settle Value.apply method)) with
  | none => exact h
  | some record =>
    exact related_writeDown hnote
      (fun _ _ hlater handler => sim.format h hevent hrecord hlater handler) _ h

theorem related_witness (sim : Simulation R Admits Visible) (h : session.Related R other)
    {trace : List Event} (htrace : ∀ event ∈ trace, Admits event) :
    (session.witness trace).Related R (other.witness trace) := by
  have hinner : Announces R Admits (announceWith fun session _ => session) :=
    sim.announces_announceWith fun _ _ _ h _ => h
  have houter : Announces R Admits
      (announceWith (noteAll (announceWith fun session _ => session))) :=
    sim.announces_announceWith fun _ _ trace h htrace => sim.related_noteAll hinner trace htrace h
  exact sim.related_noteAll houter trace htrace h

/-! ## Renders -/

theorem related_observe (sim : Simulation R Admits Visible) (h : session.Related R other)
    {α : Type} {x : Outcome α} (htrace : ∀ event ∈ x.trace, Admits event) :
    (session.observe x).1.Related R (other.observe x).1 := by
  have hstart : ({ session with grown := [] } : Session).Related R { other with grown := [] } := by
    obtain ⟨memory, hmemory, rfl⟩ := h
    exact ⟨_, sim.restart hmemory, rfl⟩
  exact sim.related_witness hstart htrace

/-- A render gives the same in both sessions, and what happens in it is admitted. -/
structure Watches (Admits : Event → Prop) (session other : Session) (target : Value)
    (context : Context) : Prop where
  outcome : evaluate other.environment context target =
    evaluate session.environment context target
  trace : ∀ event ∈ (evaluate session.environment context target).trace, Admits event

theorem related_evaluateNow (sim : Simulation R Admits Visible) (h : session.Related R other)
    {target : Value} {options : Options}
    (hwatches : ∀ context, options.normalize = .ok context →
      Watches Admits session other target context) :
    (session.evaluateNow target options).1.Related R (other.evaluateNow target options).1 ∧
      (other.evaluateNow target options).2 = (session.evaluateNow target options).2 := by
  unfold evaluateNow
  cases hcontext : options.normalize with
  | error cause => exact ⟨h, rfl⟩
  | ok context =>
    obtain ⟨houtcome, htrace⟩ := hwatches context hcontext
    have hobserved := sim.related_observe h htrace
    simp only [houtcome]
    refine ⟨hobserved, ?_⟩
    have hsettle : ∀ rendered : Rendered,
        (other.observe (evaluate session.environment context target)).1.settle Rendered.apply
          rendered = (session.observe (evaluate session.environment context target)).1.settle
            Rendered.apply rendered :=
      fun rendered => sim.settle_eq hobserved Rendered.apply rendered
    exact congrArg (fun f => Except.map f _) (funext hsettle)

theorem related_evaluateAndKeep (sim : Simulation R Admits Visible)
    (h : session.Related R other) {target : Value} {options : Options}
    (hwatches : ∀ context, options.normalize = .ok context →
      Watches Admits session other target context) :
    (session.evaluateAndKeep target options).1.Related R
        (other.evaluateAndKeep target options).1 ∧
      (other.evaluateAndKeep target options).2 = (session.evaluateAndKeep target options).2 := by
  obtain ⟨hrelated, hanswer⟩ := sim.related_evaluateNow h hwatches
  unfold evaluateAndKeep
  cases hnow : session.evaluateNow target options with
  | mk after answer =>
    cases hnow' : other.evaluateNow target options with
    | mk after' answer' =>
      rw [hnow, hnow'] at hrelated hanswer
      cases hanswer
      cases answer with
      | error cause => exact ⟨hrelated, rfl⟩
      | ok rendered =>
        cases rendered with
        | other v => exact ⟨hrelated, rfl⟩
        | result r =>
          obtain ⟨hkept, hplace⟩ := sim.related_keep hrelated r
          refine ⟨hkept, ?_⟩
          exact congrArg (fun place => Except.ok (Handout.result place)) hplace

theorem related_renderTemplate (sim : Simulation R Admits Visible)
    (h : session.Related R other) {label : Label} (hlabel : Visible label) {target : Value}
    (fields : Entries Setting)
    (hwatches : Watches Admits session other target (.ofFields fields)) :
    (session.renderTemplate label target fields).1.Related R
        (other.renderTemplate label target fields).1 ∧
      (other.renderTemplate label target fields).2 =
        (session.renderTemplate label target fields).2 := by
  have hcontext : ∀ context, (Options.mapping 0 fields).normalize = .ok context →
      Watches Admits session other target context := by
    intro context hcontext
    cases hcontext
    exact hwatches
  have hkept := sim.related_evaluateAndKeep h hcontext
  unfold renderTemplate
  rw [sim.stored h hlabel]
  split
  · exact ⟨h, rfl⟩
  · exact ⟨h, rfl⟩
  · cases hnow : session.evaluateAndKeep target (.mapping 0 fields) with
    | mk after answer =>
      cases hnow' : other.evaluateAndKeep target (.mapping 0 fields) with
      | mk after' answer' =>
        rw [hnow, hnow'] at hkept
        obtain ⟨hrelated, hanswer⟩ := hkept
        cases hanswer
        cases answer with
        | error cause => exact ⟨hrelated, rfl⟩
        | ok handout =>
          cases handout with
          | value v => exact ⟨hrelated, rfl⟩
          | result place => exact ⟨sim.related_remember hrelated hlabel fields place, rfl⟩

def SeesLabel (Visible : Label → Prop) (target : Value) : Prop :=
  ∀ label form strings values, target = .fragment (.template label form strings values) →
    Visible label

theorem related_renderFragment (sim : Simulation R Admits Visible)
    (h : session.Related R other) {target : Value} {options : Options}
    (hlabel : SeesLabel Visible target)
    (hwatches : ∀ context, options.normalize = .ok context →
      Watches Admits session other target context) :
    (session.renderFragment target options).1.Related R
        (other.renderFragment target options).1 ∧
      (other.renderFragment target options).2 = (session.renderFragment target options).2 := by
  unfold renderFragment
  split
  · next label form strings values =>
    cases hfields : options.fields with
    | error cause => exact ⟨h, rfl⟩
    | ok fields =>
      have hnormalize : options.normalize = .ok (.ofFields fields) := by
        rw [Options.normalize, hfields]
        rfl
      exact sim.related_renderTemplate h (hlabel label _ _ _ rfl) fields
        (hwatches _ hnormalize)
  · split
    · exact ⟨h, rfl⟩
    · exact sim.related_evaluateAndKeep h hwatches
  · exact ⟨h, rfl⟩

theorem related_renderInlined (sim : Simulation R Admits Visible)
    (h : session.Related R other) {target : Value} {options : Options}
    (hlabel : SeesLabel Visible target)
    (hwatches : ∀ fields, options.fields = .ok fields →
      Watches Admits session other target (.ofFields (inlinedFields fields))) :
    (session.renderInlined target options).1.Related R
        (other.renderInlined target options).1 ∧
      (other.renderInlined target options).2 = (session.renderInlined target options).2 := by
  unfold renderInlined
  split
  · next f =>
    split
    · exact ⟨h, rfl⟩
    · cases hfields : options.fields with
      | error cause => exact ⟨h, rfl⟩
      | ok fields =>
        simp only
        split
        · exact sim.related_renderTemplate h (hlabel _ _ _ _ rfl) _ (hwatches fields hfields)
        · split
          · exact ⟨h, rfl⟩
          · apply sim.related_evaluateAndKeep h
            intro context hcontext
            cases hcontext
            exact hwatches fields hfields
  · exact ⟨h, rfl⟩

/-! ## Replies -/

/-- What a render in some manner needs of both sessions. -/
def Sees (Admits : Event → Prop) (Visible : Label → Prop) (session other : Session)
    (target : Value) (options : Options) : Manner → Prop
  | .evaluate | .inspectResult => ∀ context, options.normalize = .ok context →
    Watches Admits session other target context
  | .own => SeesLabel Visible target ∧ ∀ context, options.normalize = .ok context →
    Watches Admits session other target context
  | .inlined => SeesLabel Visible target ∧ ∀ fields, options.fields = .ok fields →
    Watches Admits session other target (.ofFields (inlinedFields fields))
  | .plainText => plainText other.environment target = plainText session.environment target ∧
    ∀ event ∈ (plainText session.environment target).trace, Admits event
  | .inspect => True

/-- How replies of the two sessions compare, given what was handed out: values do not differ, and
results have one text. -/
structure Replies (R : Memory → Memory → Prop) (Alike : Handout → Reply → Reply → Prop) : Prop where
  value (v : Value) : Alike (.value v) (.plain v) (.plain v)
  result {session other : Session} (h : session.Related R other) (place : Nat) :
    Matching (fun r r' => r'.sql = r.sql ∧ ∀ sameAs : Option Nat,
      Alike (.result place) (.result r sameAs) (.result r' sameAs))
      (.ofExcept (session.resultAt place)) (.ofExcept (other.resultAt place))

variable {Alike : Handout → Reply → Reply → Prop}

def Answers (Alike : Handout → Reply → Reply → Prop)
    (answer answer' : Except Failure (Reply × Handout)) : Prop :=
  Matching (fun a b => b.2 = a.2 ∧ Alike a.2 a.1 b.1) (.ofExcept answer) (.ofExcept answer')

private theorem answers_handOut (replies : Replies R Alike) (h : session.Related R other)
    (answer : Except Failure Handout) :
    Answers Alike (session.handOut answer).2 (other.handOut answer).2 := by
  cases answer with
  | error cause => exact .error rfl rfl
  | ok handout =>
    cases handout with
    | value v => exact .ok rfl rfl ⟨rfl, replies.value v⟩
    | result place =>
      have hfirst : other.firstHandout? place = session.firstHandout? place := by
        obtain ⟨memory, _, rfl⟩ := h
        rfl
      rw [handOut_answer, handOut_answer, hfirst]
      refine (replies.result h place).map ?_
      intro r r' hr
      exact ⟨rfl, hr.2 _⟩

private theorem answers_handOutText (replies : Replies R Alike) (h : session.Related R other)
    (answer : Except Failure Handout) :
    Answers Alike (session.handOutText answer).2 (other.handOutText answer).2 := by
  cases answer with
  | error cause => exact .error rfl rfl
  | ok handout =>
    cases handout with
    | value v => exact .error rfl rfl
    | result place =>
      rw [handOutText_answer, handOutText_answer]
      refine (replies.result h place).map ?_
      intro r r' hr
      rw [hr.1]
      exact ⟨rfl, replies.value _⟩

theorem answers_refl (replies : Replies R Alike) {α : Type} (answer : Except Failure α)
    (f : α → Value) : Answers Alike (answer.map fun a => handOutValue (f a))
      (answer.map fun a => handOutValue (f a)) := by
  cases answer with
  | error cause => exact .error rfl rfl
  | ok a => exact .ok rfl rfl ⟨rfl, replies.value _⟩

/-- A render that sees the same in both sessions leaves them related, and is answered alike. -/
theorem related_render (sim : Simulation R Admits Visible) (replies : Replies R Alike)
    (h : session.Related R other) (manner : Manner) {target : Value} {options : Options}
    (hsees : Sees Admits Visible session other target options manner) :
    (session.render manner target options).1.Related R (other.render manner target options).1 ∧
      Answers Alike (session.render manner target options).2
        (other.render manner target options).2 := by
  cases manner with
  | evaluate =>
    obtain ⟨hrelated, hanswer⟩ := sim.related_evaluateAndKeep h hsees
    simp only [render, hanswer]
    exact ⟨hrelated, answers_handOut replies hrelated _⟩
  | own =>
    obtain ⟨hrelated, hanswer⟩ := sim.related_renderFragment h hsees.1 hsees.2
    simp only [render, hanswer]
    exact ⟨hrelated, answers_handOut replies hrelated _⟩
  | inlined =>
    obtain ⟨hrelated, hanswer⟩ := sim.related_renderInlined h hsees.1 hsees.2
    simp only [render, hanswer]
    exact ⟨hrelated, answers_handOutText replies hrelated _⟩
  | plainText =>
    simp only [render, hsees.1]
    exact ⟨sim.related_observe h hsees.2, answers_refl replies _ _⟩
  | inspect =>
    refine ⟨h, ?_⟩
    simp only [render]
    cases target.shown target.inspect with
    | ok s => exact .ok rfl rfl ⟨rfl, replies.value _⟩
    | error cause => exact .error rfl rfl
  | inspectResult =>
    obtain ⟨hrelated, hanswer⟩ := sim.related_evaluateNow h hsees
    simp only [render, hanswer]
    refine ⟨hrelated, ?_⟩
    cases (session.evaluateNow target options).2 with
    | error cause => exact .error rfl rfl
    | ok rendered => exact answers_refl replies rendered.inspect _

theorem related_perform_render (sim : Simulation R Admits Visible) (replies : Replies R Alike)
    (h : session.Related R other) {manner : Manner} {target : Value} {options : Options}
    (hsees : Sees Admits Visible session other target options manner) :
    (session.perform (.render manner target options)).1.Related R
      (other.perform (.render manner target options)).1 := by
  obtain ⟨hrelated, hanswers⟩ := sim.related_render replies h manner hsees
  rw [perform_render, perform_render]
  have hhandout : handoutOf (other.render manner target options).2 =
      handoutOf (session.render manner target options).2 := by
    cases hanswers with
    | error hx hy =>
      rw [Outcome.answer_ofExcept] at hx hy
      rw [hx, hy]
    | ok hx hy related =>
      rw [Outcome.answer_ofExcept] at hx hy
      rw [hx, hy]
      exact related.1
  obtain ⟨memory, hmemory, hother⟩ := hrelated
  refine ⟨memory, hmemory, ?_⟩
  rw [hhandout, hother]
  rfl

end Simulation

end Session

end SqlFragments
