import Mathlib
import SqlFragments.Proofs.Session.Simulation

/-!
# Results that are appended to

A result is handed out with the list of bindings that memory keeps. What a user appends to it
stands there when the result is handed out again, and nowhere else: every other render gives what
it gives without.
-/

namespace SqlFragments

open Outcome

def Value.Ages (v w : Value) : Prop :=
  ∃ changes : List Change, w = changes.foldl (fun v change => v.apply change) v

theorem Value.Ages.refl (v : Value) : v.Ages v :=
  ⟨[], rfl⟩

theorem Value.Ages.apply {v w : Value} (h : v.Ages w) (change : Change) :
    v.Ages (w.apply change) := by
  obtain ⟨changes, rfl⟩ := h
  refine ⟨changes ++ [change], ?_⟩
  rw [List.foldl_append]
  rfl

def Result.extended (r : Result) (more : List Value) : Result :=
  { r with bindings := r.bindings ++ more }

def Reply.extended (more : List Value) : Reply → Reply
  | result r sameAs => result (r.extended more) sameAs
  | reply => reply

@[simp]
theorem Result.extended_nil (r : Result) : r.extended [] = r := by
  simp [extended]

theorem Result.extended_eq_self_iff {r : Result} {more : List Value} :
    r.extended more = r ↔ more = [] := by
  constructor
  · intro h
    have hbindings : r.bindings ++ more = r.bindings := congrArg Result.bindings h
    simpa using hbindings
  · rintro rfl
    exact r.extended_nil

theorem Result.apply_extended (r : Result) (more : List Value) (change : Change) :
    (r.extended more).apply change = (r.apply change).extended (more.map (·.apply change)) := by
  simp [extended, apply]

/-- What was appended to the result at a place, in order. Entries name the place. -/
def appendedTo (added : List (Nat × Value)) (place : Nat) : List Value :=
  (added.filter (·.1 == place)).map (·.2)

def Handout.appended (added : List (Nat × Value)) : Handout → List Value
  | result place => appendedTo added place
  | value _ => []

theorem appendedTo_of_le {added : List (Nat × Value)} {place : Nat}
    (h : ∀ entry ∈ added, entry.1 < place) : appendedTo added place = [] := by
  have hnone : added.filter (·.1 == place) = [] := by
    rw [List.filter_eq_nil_iff]
    intro entry hentry
    have hlt := h entry hentry
    simpa using Nat.ne_of_lt hlt
  rw [appendedTo, hnone, List.map_nil]

/-! ## Memory with longer results -/

/-- Two memories that differ in what was appended to results alone. -/
structure Memory.Extends (added : List (Nat × Value)) (m m' : Memory) : Prop where
  slots : m'.slots = m.slots
  options : m'.options = m.options
  grown : m'.grown = m.grown
  places : m'.results.length = m.results.length
  results : ∀ place r, m.results[place]? = some r → ∃ more,
    m'.results[place]? = some (r.extended more) ∧
      List.Forall₂ Value.Ages (appendedTo added place) more
  added : ∀ entry ∈ added, entry.1 < m.results.length

namespace Memory.Extends

variable {added : List (Nat × Value)} {m m' : Memory}

protected theorem refl (m : Memory) : m.Extends [] m where
  slots := rfl
  options := rfl
  grown := rfl
  places := rfl
  results _ r hr := ⟨[], by rwa [Result.extended_nil], .nil⟩
  added _ h := by cases h

theorem sql_eq (h : m.Extends added m') (place : Nat) :
    m'.results[place]?.map Result.sql = m.results[place]?.map Result.sql := by
  cases hr : m.results[place]? with
  | none =>
    rw [List.getElem?_eq_none_iff, ← h.places, ← List.getElem?_eq_none_iff] at hr
    rw [hr]
  | some r =>
    obtain ⟨more, hmore, _⟩ := h.results place r hr
    rw [hmore]
    rfl

theorem keep (h : m.Extends added m') (r : Result) :
    Memory.Extends added { m with results := m.results ++ [r] }
      { m' with results := m'.results ++ [r] } where
  slots := h.slots
  options := h.options
  grown := h.grown
  places := by simp [h.places]
  results := by
    intro place r' hr'
    by_cases hlt : place < m.results.length
    · rw [List.getElem?_append_left hlt] at hr'
      obtain ⟨more, hmore, hages⟩ := h.results place r' hr'
      have hlt' : place < m'.results.length := h.places ▸ hlt
      exact ⟨more, (List.getElem?_append_left hlt').trans hmore, hages⟩
    · -- Nothing was appended to a result that was not there.
      have hle : m.results.length ≤ place := Nat.le_of_not_lt hlt
      have hle' : m'.results.length ≤ place := h.places ▸ hle
      have hnone : appendedTo added place = [] :=
        appendedTo_of_le fun entry hentry => (h.added entry hentry).trans_le hle
      rw [List.getElem?_append_right hle] at hr'
      refine ⟨[], ?_, ?_⟩
      · rw [List.getElem?_append_right hle', h.places, hr', Result.extended_nil]
      · rw [hnone]
        exact .nil
  added := by
    intro entry hentry
    rw [List.length_append]
    exact (h.added entry hentry).trans_le (Nat.le_add_right _ _)

theorem map_apply (h : m.Extends added m') (change : Change)
    {slots : List (Label × Slot)} {options : List (String × Options)} {grown : List Change} :
    Memory.Extends added ⟨slots, m.results.map (·.apply change), options, grown⟩
      ⟨slots, m'.results.map (·.apply change), options, grown⟩ where
  slots := rfl
  options := rfl
  grown := rfl
  places := by simp [h.places]
  results := by
    intro place r' hr'
    rw [List.getElem?_map] at hr'
    obtain ⟨r, hr, rfl⟩ := Option.map_eq_some_iff.1 hr'
    obtain ⟨more, hmore, hages⟩ := h.results place r hr
    refine ⟨more.map (·.apply change), ?_, ?_⟩
    · rw [List.getElem?_map, hmore, Option.map_some, Result.apply_extended]
    · rw [List.forall₂_map_right_iff]
      exact hages.imp fun _ _ h => h.apply change
  added := by simpa using h.added

theorem append (h : m.Extends added m') {place : Nat} (hplace : place < m.results.length)
    (value : Value) : Memory.Extends (added ++ [(place, value)]) m
      { m' with results := m'.results.modify place fun r => r.extended [value] } where
  slots := h.slots
  options := h.options
  grown := h.grown
  places := by simp [h.places]
  results := by
    intro other r hr
    obtain ⟨more, hmore, hages⟩ := h.results other r hr
    by_cases hother : other = place
    · subst hother
      refine ⟨more ++ [value], ?_, ?_⟩
      · rw [List.getElem?_modify_eq, hmore]
        simp [Result.extended]
      · have happended : appendedTo (added ++ [(other, value)]) other =
            appendedTo added other ++ [value] := by
          simp [appendedTo]
        rw [happended]
        exact List.rel_append hages (.cons (.refl value) .nil)
    · refine ⟨more, ?_, ?_⟩
      · rw [List.getElem?_modify_ne _ _ (Ne.symm hother), hmore]
      · have happended : appendedTo (added ++ [(place, value)]) other =
            appendedTo added other := by
          simp [appendedTo, Ne.symm hother]
        rwa [happended]
  added := by
    rw [List.forall_mem_append, List.forall_mem_singleton]
    exact ⟨h.added, hplace⟩

end Memory.Extends

namespace Session

open Simulation

variable {added : List (Nat × Value)} {session other : Session}

theorem environment_of_extends (h : session.Related (Memory.Extends added) other) :
    other.environment = session.environment := by
  obtain ⟨⟨slots, results, options, grown⟩, hmemory, rfl⟩ := h
  obtain rfl : slots = session.slots := hmemory.slots
  have hremembered : ∀ place : Option Nat,
      (place.bind fun place => results[place]?).map Result.sql =
        (place.bind fun place => session.results[place]?).map Result.sql := by
    intro place
    cases place with
    | none => rfl
    | some place => exact hmemory.sql_eq place
  unfold environment withMemory stored?
  simp only [hremembered]

theorem related_change (h : session.Related (Memory.Extends added) other) (change : Change) :
    (session.change change).Related (Memory.Extends added) (other.change change) := by
  obtain ⟨⟨slots, results, options, grown⟩, hmemory, rfl⟩ := h
  obtain rfl : slots = session.slots := hmemory.slots
  obtain rfl : options = session.options := hmemory.options
  obtain rfl : grown = session.grown := hmemory.grown
  exact ⟨_, hmemory.map_apply change, rfl⟩

theorem simulation_extends (added : List (Nat × Value)) :
    Simulation (Memory.Extends added) (fun _ => True) (fun _ => True) where
  grown h := h.grown
  restart h := ⟨h.slots, h.options, rfl, h.places, h.results, h.added⟩
  places h := h.places
  keep h r := h.keep r
  stored := by
    rintro session _ ⟨memory, hmemory, rfl⟩ label _ fields
    unfold stored? withMemory
    rw [hmemory.slots]
    rfl
  remember := by
    rintro session _ ⟨memory, hmemory, rfl⟩ label _ fields place
    have hslots : memory.slots = session.slots := hmemory.slots
    refine ⟨?_, hmemory.options, hmemory.grown, hmemory.places, hmemory.results, hmemory.added⟩
    show (label, _) :: memory.slots.filter _ = (label, _) :: session.slots.filter _
    rw [hslots]
  inlined _ := ⟨trivial, fun _ _ => trivial⟩
  extended := by
    intro session other h separator value _ change
    obtain ⟨⟨slots, results, options, grown⟩, hmemory, rfl⟩ := h
    obtain rfl : slots = session.slots := hmemory.slots
    obtain rfl : options = session.options := hmemory.options
    exact hmemory.map_apply change
  format := by
    intro session other _ kindName withParameters timezone method _ record _ later later' hlater
      handler
    rw [environment_of_extends hlater]
    exact ⟨rfl, fun _ _ => trivial⟩

/-! ## Replies -/

def Lengthened (added : List (Nat × Value)) (handout : Handout) (reply reply' : Reply) : Prop :=
  ∃ more, List.Forall₂ Value.Ages (handout.appended added) more ∧ reply' = reply.extended more ∧
    (reply' = reply ↔ handout.appended added = [])

theorem replies_extends (added : List (Nat × Value)) :
    Replies (Memory.Extends added) (Lengthened added) where
  value v := ⟨[], .nil, rfl, by simp [Handout.appended]⟩
  result := by
    rintro session _ ⟨memory, hmemory, rfl⟩ place
    have hresults : memory.results.length = session.results.length := hmemory.places
    cases hr : session.results[place]? with
    | none =>
      have hr' : memory.results[place]? = none := by
        rw [List.getElem?_eq_none_iff] at hr ⊢
        omega
      apply Matching.error
      · rw [answer_ofExcept, resultAt, hr]
      · rw [answer_ofExcept, resultAt, withMemory, hr']
    | some r =>
      obtain ⟨more, hmore, hages⟩ := hmemory.results place r hr
      refine .ok (a := r) (b := r.extended more) ?_ ?_ ⟨rfl, ?_⟩
      · rw [answer_ofExcept, resultAt, hr]
      · rw [answer_ofExcept, resultAt, withMemory, hmore]
      · intro sameAs
        refine ⟨more, hages, rfl, ?_⟩
        have hlength := hages.length_eq
        have hnil : more = [] ↔ appendedTo added place = [] := by
          rw [← List.length_eq_zero_iff, ← hlength, List.length_eq_zero_iff]
        rw [Reply.result.injEq, Handout.appended, ← hnil, Result.extended_eq_self_iff]
        simp

private theorem watches_extends (h : session.Related (Memory.Extends added) other)
    (target : Value) (context : Context) :
    Watches (fun _ => True) session other target context where
  outcome := by rw [environment_of_extends h]
  trace _ _ := trivial

theorem sees_extends (h : session.Related (Memory.Extends added) other) (manner : Manner)
    (target : Value) (options : Options) :
    Sees (fun _ => True) (fun _ => True) session other target options manner := by
  cases manner with
  | evaluate => exact fun context _ => watches_extends h target context
  | own => exact ⟨fun _ _ _ _ _ => trivial, fun context _ => watches_extends h target context⟩
  | inlined => exact ⟨fun _ _ _ _ _ => trivial, fun fields _ => watches_extends h target _⟩
  | plainText =>
    refine ⟨?_, fun _ _ => trivial⟩
    rw [environment_of_extends h]
  | inspect => trivial
  | inspectResult => exact fun context _ => watches_extends h target context

/-! ## Steps -/

private theorem related_handing (h : session.Related (Memory.Extends added) other)
    (handout : Handout) :
    ({ session with handouts := session.handouts ++ [handout] } : Session).Related
      (Memory.Extends added) { other with handouts := other.handouts ++ [handout] } := by
  obtain ⟨memory, hmemory, rfl⟩ := h
  exact ⟨memory, hmemory, rfl⟩

private theorem related_perform_of {step : Step}
    (hstep : step.isRender = false) (h : session.Related (Memory.Extends added) other)
    (hperform : Matching (fun a b => a.1.Related (Memory.Extends added) b.1)
      (.ofExcept (session.perform? step)) (.ofExcept (other.perform? step))) :
    (session.perform step).1.Related (Memory.Extends added) (other.perform step).1 := by
  cases hperform with
  | error hx hy =>
    rw [answer_ofExcept] at hx hy
    rw [perform_error hstep hx, perform_error hstep hy]
    exact related_handing h _
  | ok hx hy related =>
    rw [answer_ofExcept] at hx hy
    rw [perform_ok hstep hx, perform_ok hstep hy]
    exact related_handing related _

private def looks : Step → Bool
  | .normalize _ | .compare _ _ | .compareResults _ _ | .countRenders _ | .kind _ => true
  | _ => false

private theorem perform?_looks {step : Step} (hlooks : looks step = true) {after : Session}
    {reply : Reply} (h : session.perform? step = .ok (after, reply)) : after = session := by
  cases step with
  | normalize options =>
    obtain ⟨_, _, h⟩ := bind_eq_ok.1 h
    cases h
    rfl
  | compare left right =>
    obtain ⟨_, _, h⟩ := bind_eq_ok.1 h
    cases h
    rfl
  | compareResults left right =>
    obtain ⟨_, _, h⟩ := bind_eq_ok.1 h
    cases h
    rfl
  | countRenders name =>
    simp only [perform?] at h
    split at h
    · cases h
    · obtain ⟨_, _, h⟩ := map_eq_ok.1 h
      cases h
      rfl
    · cases h
  | kind value =>
    simp only [perform?] at h
    split at h
    · split at h
      · cases h
        rfl
      · cases h
    · cases h
  | _ => cases hlooks

private theorem perform_looks {step : Step} (hlooks : looks step = true) :
    (session.perform step).1 = session.skip := by
  have hstep : step.isRender = false := by
    cases step with
    | render manner target options => cases hlooks
    | _ => rfl
  cases hanswer : session.perform? step with
  | error cause => rw [perform_error hstep hanswer]
  | ok answer =>
    obtain ⟨after, reply⟩ := answer
    rw [perform_ok hstep hanswer, perform?_looks hlooks hanswer]

private theorem related_withOptions (h : session.Related (Memory.Extends added) other)
    (change : List (String × Options) → List (String × Options)) :
    ({ session with options := change session.options } : Session).Related (Memory.Extends added)
      { other with options := change other.options } := by
  obtain ⟨memory, hmemory, rfl⟩ := h
  have hoptions : change memory.options = change session.options :=
    congrArg change hmemory.options
  exact ⟨{ memory with options := change memory.options },
    { hmemory with options := hoptions }, rfl⟩

private theorem related_setEntries (h : session.Related (Memory.Extends added) other)
    (label : Label) (fields : Entries Setting) :
    (session.setEntries label fields).Related (Memory.Extends added)
      (other.setEntries label fields) := by
  apply related_withOptions
  exact related_change h _

private theorem matching_changeMapping (h : session.Related (Memory.Extends added) other)
    (name : String) (change : Entries Setting → Except Failure (Entries Setting)) :
    Matching (fun after after' => after.Related (Memory.Extends added) after')
      (.ofExcept (session.changeMapping name change))
      (.ofExcept (other.changeMapping name change)) := by
  have hoptions : other.options = session.options := by
    obtain ⟨memory, hmemory, rfl⟩ := h
    exact hmemory.options
  unfold changeMapping
  rw [hoptions]
  split
  · exact .error rfl rfl
  · next label fields _ =>
    cases change fields with
    | error cause => exact .error rfl rfl
    | ok changed => exact .pure (related_setEntries h label changed)
  · exact .error rfl rfl

private theorem matching_push (h : session.Related (Memory.Extends added) other) (name : String)
    (value : Value) :
    Matching (fun a b => a.1.Related (Memory.Extends added) b.1)
      (.ofExcept (session.perform? (.push name value)))
      (.ofExcept (other.perform? (.push name value))) := by
  have hnames : other.value? name = session.value? name := by
    obtain ⟨memory, _, rfl⟩ := h
    rfl
  simp only [perform?, hnames]
  split
  · exact .error rfl rfl
  · exact .pure (related_change h _)
  · cases Literal.byteOfValue value with
    | error cause => exact .error rfl rfl
    | ok byte => exact .pure (related_change h _)
  · exact .error rfl rfl

private theorem matching_assign (h : session.Related (Memory.Extends added) other) (target : Value)
    (field : String) (value : Value) :
    Matching (fun after after' => after.Related (Memory.Extends added) after')
      (.ofExcept (session.assign target field value))
      (.ofExcept (other.assign target field value)) := by
  have hchanged : ∀ label : Label, Matching
      (fun after after' => after.Related (Memory.Extends added) after')
      (.ofExcept (if field = "__class__" ∨ field = "__dict__" then .error .wrongType
        else .ok (if field = "renders" then
          { session.change (.field label field value) with
            renders := (session.change (.field label field value)).renders.filter (· != label) }
          else session.change (.field label field value))))
      (.ofExcept (if field = "__class__" ∨ field = "__dict__" then .error .wrongType
        else .ok (if field = "renders" then
          { other.change (.field label field value) with
            renders := (other.change (.field label field value)).renders.filter (· != label) }
          else other.change (.field label field value)))) := by
    intro label
    split
    · exact .error rfl rfl
    · obtain ⟨memory, hmemory, hother⟩ := related_change h (.field label field value)
      apply Matching.pure
      refine ⟨memory, ?_, ?_⟩
      · split <;> exact hmemory
      · rw [hother]
        split <;> rfl
  cases target with
  | fragment f =>
    simp only [assign]
    split
    · exact hchanged _
    · exact .error rfl rfl
  | object label _ => exact hchanged label
  | _ => exact .error rfl rfl

/-- Every step but appending to bindings keeps longer results where they are. -/
theorem related_perform (h : session.Related (Memory.Extends added) other) (step : Step)
    (hstep : ∀ number value, step ≠ .pushBinding number value) :
    (session.perform step).1.Related (Memory.Extends added) (other.perform step).1 := by
  cases step with
  | render manner target options =>
    exact (simulation_extends added).related_perform_render (replies_extends added) h
      (sees_extends h manner target options)
  | pushBinding number value => exact absurd rfl (hstep number value)
  | setOption name key setting =>
    refine related_perform_of rfl h ?_
    exact (matching_changeMapping h name _).map (fun _ _ related => related)
  | removeOption name key =>
    refine related_perform_of rfl h ?_
    exact (matching_changeMapping h name _).map (fun _ _ related => related)
  | push name value => exact related_perform_of rfl h (matching_push h name value)
  | assign target field value =>
    refine related_perform_of rfl h ?_
    exact (matching_assign h target field value).map (fun _ _ related => related)
  | replace name source changes =>
    have hoptions : other.options = session.options := by
      obtain ⟨memory, hmemory, rfl⟩ := h
      exact hmemory.options
    refine related_perform_of rfl h ?_
    simp only [perform?, hoptions]
    split
    · exact .error rfl rfl
    · next options _ =>
      cases options.changed changes with
      | error cause => exact .error rfl rfl
      | ok changed =>
        have hrenamed := related_withOptions h fun options => rename options name changed
        rw [hoptions] at hrenamed
        exact .pure hrenamed
  | name name value =>
    obtain ⟨memory, hmemory, rfl⟩ := h
    exact ⟨memory, hmemory, rfl⟩
  | nameOptions name options =>
    exact related_handing (related_withOptions h fun named => rename named name options) _
  | takeCalls =>
    obtain ⟨memory, hmemory, rfl⟩ := h
    exact ⟨memory, hmemory, rfl⟩
  | normalize _ | compare _ _ | compareResults _ _ | countRenders _ | kind _ =>
    rw [perform_looks rfl, perform_looks rfl]
    exact related_handing h _

/-! ## Sessions with and without what is appended -/

/-- A session, and the same session in which the user also appends values to bindings of results
that steps handed out. -/
inductive Appending : List (Nat × Value) → Session → Session → Prop
  | start (session : Session) : Appending [] session session
  | step {added : List (Nat × Value)} {session other : Session}
    (before : Appending added session other) (step : Step)
    (hstep : ∀ number value, step ≠ .pushBinding number value) :
    Appending added (session.perform step).1 (other.perform step).1
  | append {added : List (Nat × Value)} {session other : Session}
    (before : Appending added session other) {number : Int} {place : Nat} {r : Result}
    (hhandout : other.handoutAt number = .ok (.result place))
    (hresult : other.resultAt place = .ok r) (value : Value) :
    Appending (added ++ [(place, value)]) session.skip
      (other.perform (.pushBinding number value)).1

private theorem related_pushBinding (h : session.Related (Memory.Extends added) other)
    {number : Int} {place : Nat} {r : Result}
    (hhandout : other.handoutAt number = .ok (.result place))
    (hresult : other.resultAt place = .ok r) (value : Value) :
    session.skip.Related (Memory.Extends (added ++ [(place, value)]))
      (other.perform (.pushBinding number value)).1 := by
  obtain ⟨memory, hmemory, rfl⟩ := h
  have hfound : memory.results[place]? = some r := by
    unfold resultAt at hresult
    split at hresult
    · next found hfound =>
      cases hresult
      exact hfound
    · cases hresult
  have hplace : place < session.results.length := by
    obtain ⟨hlt, _⟩ := List.getElem?_eq_some_iff.1 hfound
    have hlength : memory.results.length = session.results.length := hmemory.places
    omega
  have hgrown : ((session.withMemory memory).growBindings place value).results[place]? =
      some (r.extended [value]) := by
    show (memory.results.modify place fun r => r.extended [value])[place]? = _
    rw [List.getElem?_modify_eq, hfound]
    rfl
  have hperform : (session.withMemory memory).perform? (.pushBinding number value) =
      .ok ((session.withMemory memory).growBindings place value,
        .bindings (r.extended [value]).bindings) := by
    simp only [perform?, hhandout, Bind.bind, Except.bind, resultAt, hgrown]
    rfl
  refine ⟨_, hmemory.append hplace value, ?_⟩
  rw [perform_ok rfl hperform]
  rfl

theorem Appending.related (h : Appending added session other) :
    session.Related (Memory.Extends added) other := by
  induction h with
  | start session => exact ⟨session.memory, .refl _, rfl⟩
  | step before step hstep ih => exact related_perform ih step hstep
  | append before hhandout hresult value ih => exact related_pushBinding ih hhandout hresult value

/-- A render gives what it gives without what the user appended, but for the values that were
appended to the very result that it hands out again: these stand behind its bindings. So the two
replies are one exactly where nothing was appended to that result. -/
theorem render_of_appending (h : Appending added session other) (manner : Manner)
    (target : Value) (options : Options) :
    (∃ cause, (session.render manner target options).2 = .error cause ∧
      (other.render manner target options).2 = .error cause) ∨
    ∃ reply handout more, (session.render manner target options).2 = .ok (reply, handout) ∧
      (other.render manner target options).2 = .ok (reply.extended more, handout) ∧
      List.Forall₂ Value.Ages (handout.appended added) more ∧
      (reply.extended more = reply ↔ handout.appended added = []) := by
  have hrelated := h.related
  obtain ⟨_, hanswers⟩ := (simulation_extends added).related_render (replies_extends added)
    hrelated manner (sees_extends hrelated manner target options)
  cases hanswers with
  | error hx hy => exact .inl ⟨_, hx, hy⟩
  | @ok a b hx hy related =>
    obtain ⟨reply, handout⟩ := a
    obtain ⟨reply', handout'⟩ := b
    obtain ⟨hhandout, more, hages, hreply, hiff⟩ := related
    cases hhandout
    cases hreply
    exact .inr ⟨reply, handout, more, hx, hy, hages, hiff⟩

/-- A value that was appended to the result of the first step is handed out by the next render
under the same options. -/
theorem render_of_appending_select :
    let target : Value := .fragment (.template 0 .statement [.text "SELECT ", .text ""] [.int 5])
    let first := (({} : Session).perform (.render .own target .absent)).1
    let second := (first.perform (.pushBinding 0 (.int 6))).1
    (∃ cause, (first.skip.render .own target .absent).2 = .error cause ∧
      (second.render .own target .absent).2 = .error cause) ∨
    ∃ reply handout more, (first.skip.render .own target .absent).2 = .ok (reply, handout) ∧
      (second.render .own target .absent).2 = .ok (reply.extended more, handout) ∧
      List.Forall₂ Value.Ages (handout.appended ([] ++ [(0, .int 6)])) more ∧
      (reply.extended more = reply ↔ handout.appended ([] ++ [(0, .int 6)]) = []) := by
  intro target first second
  have hstart : Appending [] first first :=
    (Appending.start {}).step (.render .own target .absent) nofun
  have hfirst : first = {
      slots := [(0, ⟨[], 0⟩)]
      results := [{ sql := .text "SELECT ?", bindings := [.int 5] }]
      handouts := [.result 0] } := rfl
  clear_value first
  subst hfirst
  exact render_of_appending (hstart.append rfl rfl (.int 6)) .own target .absent

/-- The second of two renders under the same options has one binding more where a value was
appended to the result of the first. -/
theorem render_appended_ne :
    let target : Value := .fragment (.template 0 .statement [.text "SELECT ", .text ""] [.int 5])
    let first := (({} : Session).perform (.render .own target .absent)).1
    (first.skip.perform (.render .own target .absent)).2 ≠
      ((first.perform (.pushBinding 0 (.int 6))).1.perform (.render .own target .absent)).2 := by
  intro target first
  have hfirst : first = {
      slots := [(0, ⟨[], 0⟩)]
      results := [{ sql := .text "SELECT ?", bindings := [.int 5] }]
      handouts := [.result 0] } := rfl
  clear_value first
  have hwithout : (first.skip.perform (.render .own target .absent)).2 =
      .ok (.result { sql := .text "SELECT ?", bindings := [.int 5] } (some 0)) := by
    rw [hfirst]
    rfl
  have hwith : ((first.perform (.pushBinding 0 (.int 6))).1.perform
      (.render .own target .absent)).2 =
      .ok (.result { sql := .text "SELECT ?", bindings := [.int 5, .int 6] } (some 0)) := by
    rw [hfirst]
    rfl
  rw [hwithout, hwith]
  simp

end Session

end SqlFragments
