import SqlFragments.Proofs.Render.Avoids
import SqlFragments.Proofs.Render.Options
import SqlFragments.Proofs.Session.Memory
import SqlFragments.Proofs.Session.Simulation

/-!
# Templates inside other things

A render that avoids a template neither asks what the template remembers nor changes it: whatever
stands in its slot, the reply is the same and the slot stays as it was.
-/

namespace SqlFragments

variable {hidden : Label}

namespace Memory

/-- A memory after another in which the slot of a template and the options are what they were, and
no result was taken away. -/
structure Keeps (hidden : Label) (before after : Memory) : Prop where
  slot : after.slots.lookup hidden = before.slots.lookup hidden
  results : before.results <+: after.results
  options : after.options = before.options
  grown : after.grown = []

/-- Two memories after two others that keep the slot of a template, and differ in nothing else that
renders ask for. -/
structure AgreesOutside (hidden : Label) (start start' m m' : Memory) : Prop where
  keeps : start.Keeps hidden m
  keeps' : start'.Keeps hidden m'
  results : m'.results = m.results
  slots : ∀ label, label ≠ hidden → m'.slots.lookup label = m.slots.lookup label

theorem Keeps.refl {memory : Memory} (h : memory.grown = []) : memory.Keeps hidden memory :=
  ⟨rfl, List.prefix_refl _, rfl, h⟩

theorem Keeps.trans {first second third : Memory} (h : first.Keeps hidden second)
    (h' : second.Keeps hidden third) : first.Keeps hidden third where
  slot := h'.slot.trans h.slot
  results := h.results.trans h'.results
  options := h'.options.trans h.options
  grown := h'.grown

end Memory

namespace Session

variable {start start' : Memory} {session other : Session}

private theorem stored_eq
    (h : session.Related (Memory.AgreesOutside hidden start start') other) {label : Label}
    (hlabel : label ≠ hidden) (fields : Entries Setting) :
    other.stored? label fields = session.stored? label fields := by
  obtain ⟨memory, hmemory, rfl⟩ := h
  have hslots : memory.slots.lookup label = session.slots.lookup label :=
    hmemory.slots label hlabel
  simp only [stored?, withMemory, hslots]

private theorem environment_agrees
    (h : session.Related (Memory.AgreesOutside hidden start start') other) :
    session.environment.AgreesOutside hidden other.environment := by
  have hstored : ∀ label, label ≠ hidden →
      other.stored? label (inlinedFields []) = session.stored? label (inlinedFields []) :=
    fun _ hlabel => stored_eq h hlabel _
  obtain ⟨memory, hmemory, rfl⟩ := h
  have hresults : memory.results = session.results := hmemory.results
  refine ⟨rfl, ?_⟩
  intro label hlabel
  simp only [environment, hstored label hlabel]
  simp only [withMemory, hresults]

private theorem keeps_keep {memory : Memory} (h : start.Keeps hidden memory) (r : Result) :
    start.Keeps hidden { memory with results := memory.results ++ [r] } :=
  { h with results := h.results.trans (List.prefix_append _ _) }

private theorem keeps_remember (h : start.Keeps hidden session.memory) {label : Label}
    (hlabel : label ≠ hidden) (fields : Entries Setting) (place : Nat) :
    start.Keeps hidden (session.remember label fields place).memory :=
  { h with slot := (lookup_remember_of_ne session hlabel.symm fields place).trans h.slot }

theorem simulation_avoids (hidden : Label) (start start' : Memory) :
    Simulation (Memory.AgreesOutside hidden start start') (Event.Avoids hidden) (· ≠ hidden) where
  grown h := h.keeps'.grown.trans h.keeps.grown.symm
  restart h := { h with
    keeps := { h.keeps with grown := rfl }
    keeps' := { h.keeps' with grown := rfl } }
  places h := congrArg List.length h.results
  keep h r := { h with
    keeps := keeps_keep h.keeps r
    keeps' := keeps_keep h.keeps' r
    results := congrArg (· ++ [r]) h.results }
  stored h label hlabel fields := stored_eq h hlabel fields
  remember h label hlabel fields place := by
    obtain ⟨memory, hmemory, rfl⟩ := h
    refine ⟨keeps_remember hmemory.keeps hlabel fields place, ?_, hmemory.results, ?_⟩
    · exact keeps_remember hmemory.keeps' hlabel fields place
    · intro l hl
      by_cases h : l = label
      · subst h
        exact (lookup_remember_self _ _ _ _).trans (lookup_remember_self _ _ _ _).symm
      · exact (lookup_remember_of_ne _ h _ _).trans
          ((hmemory.slots l hl).trans (lookup_remember_of_ne _ h _ _).symm)
  inlined hevent := by
    cases hevent with
    | inlined hlabel htrace => exact ⟨hlabel, htrace⟩
  extended _ _ _ hevent := by cases hevent
  format h _ _ _ _ hevent record hrecord later later' hlater handler := by
    obtain ⟨memory, hmemory, _⟩ := h
    -- No separator has grown, so the record shows the settings as they were given.
    rw [settle_of_still hmemory.keeps.grown, settle_of_still hmemory.keeps.grown] at hrecord
    cases hevent with
    | rendering _ _ htimezone hmethod =>
      have hformat := (environment_agrees hlater).comparison.format handler htimezone hmethod
        hrecord
      exact ⟨hformat.eq, hformat.trace⟩

end Session

/-! ## Renders -/

def Manner.recalls : Manner → Bool
  | .own | .inlined | .plainText => true
  | .evaluate | .inspect | .inspectResult => false

def Options.Avoids (hidden : Label) (options : Options) : Prop :=
  ∀ context, options.normalize = .ok context → context.Avoids hidden

theorem Context.Avoids.inlinedFields {fields : Entries Setting}
    (h : (Context.ofFields fields).Avoids hidden) :
    (Context.ofFields (inlinedFields fields)).Avoids hidden := by
  rw [Context.ofFields_inlinedFields]
  exact ⟨h.escape, h.escapeId, h.timezone, h.method⟩

theorem Value.Avoids.rendered {written : Bool} {value : Value}
    (h : value.Avoids hidden written) : value.Avoids hidden false := by
  cases value with
  | fragment f => exact ⟨nofun, h.2⟩
  | _ => exact h

namespace Session

variable {start start' : Memory} {session other : Session}

open Simulation

private theorem watches_avoids
    (h : session.Related (Memory.AgreesOutside hidden start start') other) {target : Value}
    (htarget : target.Avoids hidden false) {context : Context}
    (hcontext : context.Avoids hidden) :
    Watches (Event.Avoids hidden) session other target context := by
  have hrender := (environment_agrees h).comparison.evaluate target htarget hcontext
  exact ⟨hrender.eq, hrender.trace⟩

private theorem seesLabel_avoids {target : Value} (htarget : target.Avoids hidden true) :
    SeesLabel (· ≠ hidden) target := by
  rintro label form strings values rfl rfl
  exact htarget.1 rfl rfl

private theorem sees_avoids
    (h : session.Related (Memory.AgreesOutside hidden start start') other) {manner : Manner}
    {target : Value} (htarget : target.Avoids hidden manner.recalls) {options : Options}
    (hoptions : options.Avoids hidden) :
    Sees (Event.Avoids hidden) (· ≠ hidden) session other target options manner := by
  have hwatches : ∀ context, options.normalize = .ok context →
      Watches (Event.Avoids hidden) session other target context :=
    fun context hcontext => watches_avoids h htarget.rendered (hoptions context hcontext)
  cases manner with
  | evaluate => exact hwatches
  | inspectResult => exact hwatches
  | inspect => trivial
  | own => exact ⟨seesLabel_avoids htarget, hwatches⟩
  | inlined =>
    refine ⟨seesLabel_avoids htarget, ?_⟩
    intro fields hfields
    apply watches_avoids h htarget.rendered
    apply Context.Avoids.inlinedFields
    apply hoptions
    rw [Options.normalize, hfields]
    rfl
  | plainText =>
    have htext := (environment_agrees h).comparison.plainText target htarget
    exact ⟨htext.eq, htext.trace⟩

private theorem replies_avoids (hidden : Label) (start start' : Memory) :
    Replies (Memory.AgreesOutside hidden start start') (fun _ reply reply' => reply' = reply) where
  value _ := rfl
  result := by
    intro session other h place
    have hplace : other.resultAt place = session.resultAt place := by
      obtain ⟨memory, hmemory, rfl⟩ := h
      have hresults : memory.results = session.results := hmemory.results
      simp only [resultAt, withMemory, hresults]
    rw [hplace]
    cases hresult : session.resultAt place with
    | error cause => exact .error rfl rfl
    | ok r => exact .ok rfl rfl ⟨rfl, fun _ => rfl⟩

def withSlot (session : Session) (label : Label) (slot? : Option Slot) : Session :=
  { session with
    slots := (slot?.map (label, ·)).toList ++ session.slots.filter (·.1 != label) }

theorem lookup_withSlot_of_ne (session : Session) {label : Label} (h : label ≠ hidden)
    (slot? : Option Slot) :
    (session.withSlot hidden slot?).slots.lookup label = session.slots.lookup label := by
  have hne : (label == hidden) = false := beq_false_of_ne h
  have hrest := lookup_filter_of_ne h session.slots
  cases slot? with
  | none => exact hrest
  | some slot =>
    show ((hidden, slot) :: session.slots.filter (·.1 != hidden)).lookup label = _
    rw [List.lookup_cons, hne]
    exact hrest

theorem related_withSlot (hgrown : session.grown = []) (slot? : Option Slot) :
    session.Related (Memory.AgreesOutside hidden session.memory
      (session.withSlot hidden slot?).memory) (session.withSlot hidden slot?) :=
  ⟨(session.withSlot hidden slot?).memory, ⟨.refl hgrown, .refl hgrown, rfl,
    fun _ hlabel => lookup_withSlot_of_ne session hlabel slot?⟩, rfl⟩

theorem related_self (hgrown : session.grown = []) :
    session.Related (Memory.AgreesOutside hidden session.memory session.memory) session :=
  ⟨session.memory, ⟨.refl hgrown, .refl hgrown, rfl, fun _ _ => rfl⟩, rfl⟩

theorem keeps_of_related (h : session.Related (Memory.AgreesOutside hidden start start') other) :
    start.Keeps hidden session.memory := by
  obtain ⟨_, hmemory, _⟩ := h
  exact hmemory.keeps

theorem keeps_evaluateNow (hgrown : session.grown = []) {target : Value}
    (htarget : target.Avoids hidden false) {options : Options}
    (hoptions : options.Avoids hidden) :
    session.memory.Keeps hidden (session.evaluateNow target options).1.memory := by
  have hstart : session.Related (Memory.AgreesOutside hidden _ _) session := related_self hgrown
  have hwatches := fun context hcontext =>
    watches_avoids hstart htarget (hoptions context hcontext)
  exact keeps_of_related ((simulation_avoids hidden _ _).related_evaluateNow hstart hwatches).1

theorem keeps_witness (hgrown : session.grown = []) {trace : List Event}
    (htrace : ∀ event ∈ trace, event.Avoids hidden) :
    session.memory.Keeps hidden (session.witness trace).memory :=
  keeps_of_related ((simulation_avoids hidden _ _).related_witness (related_self hgrown) htrace)

/-- A render that avoids a template leaves its slot as it is, and is answered alike whatever
stands there. -/
theorem perform_render_avoids (hgrown : session.grown = []) {manner : Manner} {target : Value}
    (htarget : target.Avoids hidden manner.recalls) {options : Options}
    (hoptions : options.Avoids hidden) (slot? : Option Slot) :
    session.memory.Keeps hidden (session.perform (.render manner target options)).1.memory ∧
      ((session.withSlot hidden slot?).perform (.render manner target options)).2 =
        (session.perform (.render manner target options)).2 := by
  have hstart : session.Related (Memory.AgreesOutside hidden _ _) _ :=
    related_withSlot hgrown slot?
  obtain ⟨hrelated, hanswers⟩ := (simulation_avoids hidden _ _).related_render
    (replies_avoids hidden _ _) hstart manner (sees_avoids hstart htarget hoptions)
  have hkeeps := keeps_of_related hrelated
  rw [perform_render, perform_render]
  refine ⟨hkeeps, ?_⟩
  cases hanswers with
  | error hx hy =>
    rw [Outcome.answer_ofExcept] at hx hy
    rw [hx, hy]
  | @ok a b hx hy related =>
    rw [Outcome.answer_ofExcept] at hx hy
    rw [hx, hy]
    exact congrArg Except.ok related.2

end Session

end SqlFragments
