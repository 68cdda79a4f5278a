import Mathlib.Data.List.Nodup
import SqlFragments.Proofs.Session.Consult

/-!
# One slot

A template remembers one render: the settings and the result of the last call that rendered it
with success. A call whose settings are like these hands that result out again, and no other call
hands out a result that was handed out before. What fails, and what only holds the template inside,
leaves the slot as it is.
-/

namespace SqlFragments

def Slot.apply (change : Change) (slot : Slot) : Slot :=
  { slot with fields := slot.fields.map fun (key, setting) => (key, setting.apply change) }

def Change.settings (label : Label) (fields : Entries Setting) : Change :=
  .entries label (fields.map fun (key, setting) => (key, setting.toValue))

namespace Session

/-- The sessions in which a template is called, with what was remembered at each call that gave a
new result, the last first. The template is known by its label; what it captured may be changed.
In between the user changes options, renders other things in which the template may stand, and does
what leaves memory as it is. A mapping that is changed and stands among remembered settings is
changed there as well. -/
inductive Snapshots (label : Label) : List Slot → Session → Prop
  | start {session : Session} (hslot : session.slots.lookup label = none)
    (hgrown : session.grown = []) : Snapshots label [] session
  | new {past : List Slot} {session : Session} (before : Snapshots label past session)
    {pattern : Pattern} (hvalues : Value.AvoidsEach label false pattern.values) {call : Call}
    (havoids : call.Avoids label) {fields : Entries Setting} (hfields : call.fields = .ok fields)
    {place : Nat} (hplace : session.results.length ≤ place)
    (hnew : call.HandsOut session label pattern place) :
    Snapshots label (⟨fields, place⟩ :: past)
      (session.perform (call.step (pattern.fragment label))).1
  | old {past : List Slot} {session : Session} (before : Snapshots label past session)
    {pattern : Pattern} (hvalues : Value.AvoidsEach label false pattern.values) {call : Call}
    (havoids : call.Avoids label)
    (hold : ∀ place, session.results.length ≤ place →
      ¬ call.HandsOut session label pattern place) :
    Snapshots label past (session.perform (call.step (pattern.fragment label))).1
  | nested {past : List Slot} {session : Session} (before : Snapshots label past session)
    {manner : Manner} {target : Value} (htarget : target.Avoids label manner.recalls)
    {options : Options} (hoptions : options.Avoids label) :
    Snapshots label past (session.perform (.render manner target options)).1
  | setOption {past : List Slot} {session : Session} (before : Snapshots label past session)
    {name : String} {mapping : Label} {fields : Entries Setting}
    (hoptions : session.options.lookup name = some (.mapping mapping fields)) (key : String)
    (setting : Setting) :
    Snapshots label
      (past.map (Slot.apply (.settings mapping (fields.insert (.text key) setting))))
      (session.perform (.setOption name key setting)).1
  | removeOption {past : List Slot} {session : Session} (before : Snapshots label past session)
    {name : String} {mapping : Label} {fields : Entries Setting}
    (hoptions : session.options.lookup name = some (.mapping mapping fields)) {key : String}
    (hkey : (fields.get? (.text key)).isSome = true) :
    Snapshots label (past.map (Slot.apply (.settings mapping (fields.erase (.text key)))))
      (session.perform (.removeOption name key)).1
  | other {past : List Slot} {session : Session} (before : Snapshots label past session)
    {step : Step} (hspares : session.Spares (session.perform step).1)
    (hgrown : (session.perform step).1.grown = []) :
    Snapshots label past (session.perform step).1

variable {label : Label} {pattern : Pattern} {past : List Slot} {session : Session}

/-! ## Many calls -/

private theorem handsOut_unique {call : Call} {place other : Nat}
    (h : call.HandsOut session label pattern place)
    (h' : call.HandsOut session label pattern other) : place = other := by
  obtain ⟨_, _, h⟩ := h
  obtain ⟨_, _, h'⟩ := h'
  cases call with
  | own options =>
    obtain ⟨_, _, hlast⟩ := h
    obtain ⟨_, _, hlast'⟩ := h'
    rw [hlast] at hlast'
    cases hlast'
    rfl
  | inlined | written =>
    obtain ⟨_, _, hslot⟩ := h
    obtain ⟨_, _, hslot'⟩ := h'
    rw [hslot] at hslot'
    cases hslot'
    rfl

private theorem lt_length {past : List Slot} (h : session.Holds label past) {slot : Slot}
    (hslot : slot ∈ past) : slot.result < session.results.length := by
  obtain ⟨r, _, hresult, _⟩ := h.results slot hslot
  exact (List.getElem?_eq_some_iff.1 hresult).1

private theorem getElem?_of_prefix {α : Type} {as bs : List α} (h : as <+: bs) {place : Nat} {a : α}
    (ha : as[place]? = some a) : bs[place]? = some a := by
  obtain ⟨hlt, _⟩ := List.getElem?_eq_some_iff.1 ha
  obtain ⟨rest, rfl⟩ := h
  rwa [List.getElem?_append_left hlt]

private theorem Holds.of_keeps {after : Session} (h : session.Holds label past)
    (hkeeps : session.memory.Keeps label after.memory) : after.Holds label past where
  grown := hkeeps.grown
  slot := hkeeps.slot.trans h.slot
  places := h.places
  results slot hslot := by
    obtain ⟨r, s, hresult, hs⟩ := h.results slot hslot
    exact ⟨r, s, getElem?_of_prefix hkeeps.results hresult, hs⟩

private theorem Holds.of_renews {after : Session} (h : session.Holds label past)
    {fields : Entries Setting} {place : Nat}
    (hrenews : session.memory.Renews label fields place after.memory) :
    after.Holds label (⟨fields, place⟩ :: past) where
  grown := hrenews.grown
  slot := hrenews.slot
  places := by
    rw [List.map_cons, List.nodup_cons]
    -- Places are never reused: a new one lies behind all results there were.
    refine ⟨fun hmem => ?_, h.places⟩
    obtain ⟨slot, hslot, rfl⟩ := List.mem_map.1 hmem
    exact absurd (lt_length h hslot) (Nat.not_lt.2 hrenews.new)
  results := by
    rw [List.forall_mem_cons]
    refine ⟨hrenews.result, fun slot hslot => ?_⟩
    obtain ⟨r, s, hresult, hs⟩ := h.results slot hslot
    exact ⟨r, s, getElem?_of_prefix hrenews.results hresult, hs⟩

private theorem Holds.of_spares {after : Session} (h : session.Holds label past)
    (hspares : session.Spares after) (hgrown : after.grown = []) : after.Holds label past where
  grown := hgrown
  slot := by rw [hspares.slots, h.slot]
  places := h.places
  results slot hslot := by
    obtain ⟨r, s, hresult, hs⟩ := h.results slot hslot
    exact ⟨r, s, hspares.results _ r hresult, hs⟩

private theorem lookup_apply (change : Change) (slots : List (Label × Slot)) :
    (slots.map fun (l, slot) => (l, slot.apply change)).lookup label =
      (slots.lookup label).map (Slot.apply change) := by
  induction slots with
  | nil => rfl
  | cons entry rest ih =>
    obtain ⟨l, slot⟩ := entry
    rw [List.map_cons, List.lookup_cons, List.lookup_cons]
    split
    · rfl
    · exact ih

private theorem Holds.setEntries (h : session.Holds label past) (mapping : Label)
    (fields : Entries Setting) :
    (session.setEntries mapping fields).Holds label
      (past.map (Slot.apply (.settings mapping fields))) where
  grown := h.grown
  slot := by
    rw [List.head?_map, ← h.slot]
    exact lookup_apply _ session.slots
  places := by
    rw [List.map_map]
    exact h.places
  results := by
    rw [List.forall_mem_map]
    intro slot hslot
    obtain ⟨r, s, hresult, hs⟩ := h.results slot hslot
    refine ⟨r.apply (.settings mapping fields), s, ?_, ?_⟩
    · show (session.results.map (Result.apply _))[slot.result]? = _
      rw [List.getElem?_map, hresult]
      rfl
    · rw [Result.apply, hs]
      rfl

private theorem spares_setOption_setEntries {name : String} {mapping : Label}
    {fields : Entries Setting}
    (hoptions : session.options.lookup name = some (.mapping mapping fields)) (key : String)
    (setting : Setting) :
    (session.setEntries mapping (fields.insert (.text key) setting)).Spares
        (session.perform (.setOption name key setting)).1 ∧
      (session.perform (.setOption name key setting)).1.grown = session.grown := by
  have hchange : session.perform? (.setOption name key setting) =
      .ok (session.setEntries mapping (fields.insert (.text key) setting), .done) := by
    simp only [perform?, changeMapping, hoptions]
    rfl
  rw [perform_ok rfl hchange]
  exact ⟨⟨rfl, rfl, fun _ _ hr => hr⟩, rfl⟩

private theorem spares_removeOption_setEntries {name : String} {mapping : Label}
    {fields : Entries Setting}
    (hoptions : session.options.lookup name = some (.mapping mapping fields)) {key : String}
    (hkey : (fields.get? (.text key)).isSome = true) :
    (session.setEntries mapping (fields.erase (.text key))).Spares
        (session.perform (.removeOption name key)).1 ∧
      (session.perform (.removeOption name key)).1.grown = session.grown := by
  have hchange : session.perform? (.removeOption name key) =
      .ok (session.setEntries mapping (fields.erase (.text key)), .done) := by
    simp only [perform?, changeMapping, hoptions, hkey]
    rfl
  rw [perform_ok rfl hchange]
  exact ⟨⟨rfl, rfl, fun _ _ hr => hr⟩, rfl⟩

private theorem ne_error_of_handsOut {call : Call} {place : Nat}
    (h : call.HandsOut session label pattern place) (cause : Failure) :
    (session.perform (call.step (pattern.fragment label))).2 ≠ .error cause := by
  obtain ⟨_, _, h⟩ := h
  cases call with
  | own options =>
    obtain ⟨_, hreply, _⟩ := h
    rw [hreply]
    nofun
  | inlined | written =>
    rw [h.1]
    nofun

/-- However a session goes on, a template remembers the last call that gave a new result. -/
theorem Snapshots.holds (h : Snapshots label past session) : session.Holds label past := by
  induction h with
  | start hslot hgrown => exact ⟨hgrown, hslot, List.nodup_nil, fun _ hslot => by cases hslot⟩
  | new before hvalues havoids hfields hplace hnew ih =>
    cases ends ih hvalues havoids with
    | failed hreply => exact absurd hreply (ne_error_of_handsOut hnew _)
    | again hlatest _ _ hout =>
      -- The call gave a new result, and this one is as old as the last render.
      rw [handsOut_unique hnew hout] at hplace
      exact absurd (lt_length ih (List.mem_of_mem_head? hlatest)) (Nat.not_lt.2 hplace)
    | anew hfields' _ hout hrenews =>
      rw [hfields] at hfields'
      cases hfields'
      rw [handsOut_unique hnew hout]
      exact ih.of_renews hrenews
  | old before hvalues havoids hold ih =>
    cases ends ih hvalues havoids with
    | failed _ hkeeps => exact ih.of_keeps hkeeps
    | again _ _ _ _ hkeeps => exact ih.of_keeps hkeeps
    | anew _ _ hout hrenews => exact absurd hout (hold _ hrenews.new)
  | nested before htarget hoptions ih =>
    exact ih.of_keeps (perform_render_avoids ih.grown htarget hoptions none).1
  | setOption before hoptions key setting ih =>
    obtain ⟨hspares, hgrown⟩ := spares_setOption_setEntries hoptions key setting
    exact (ih.setEntries _ _).of_spares hspares (hgrown.trans ih.grown)
  | removeOption before hoptions hkey ih =>
    obtain ⟨hspares, hgrown⟩ := spares_removeOption_setEntries hoptions hkey
    exact (ih.setEntries _ _).of_spares hspares (hgrown.trans ih.grown)
  | other before hspares hgrown ih => exact ih.of_spares hspares hgrown

/-- A template remembers one render. A call hands out the result of an earlier one exactly when
that is the last one that gave a new result, and its settings are like those of the call. A call
that fails leaves the slot as it is, and so does a render that avoids the template, which is
answered alike whatever stands in the slot. Neither changes the options of the user. -/
theorem one_slot (h : Snapshots label past session) :
    (∀ pattern : Pattern, Value.AvoidsEach label false pattern.values →
      ∀ call : Call, call.Avoids label →
        (∀ earlier ∈ past, call.HandsOut session label pattern earlier.result ↔
          past.head? = some earlier ∧
            ∃ fields, call.fields = .ok fields ∧ earlier.fields.Alike fields) ∧
        (∀ cause, (session.perform (call.step (pattern.fragment label))).2 = .error cause →
          (session.perform (call.step (pattern.fragment label))).1.slots.lookup label =
            session.slots.lookup label) ∧
        (session.perform (call.step (pattern.fragment label))).1.options = session.options) ∧
    ∀ manner (target : Value), target.Avoids label manner.recalls →
      ∀ options : Options, options.Avoids label →
        (session.perform (.render manner target options)).1.slots.lookup label =
          session.slots.lookup label ∧
        (∀ slot? : Option Slot,
          ((session.withSlot label slot?).perform (.render manner target options)).2 =
            (session.perform (.render manner target options)).2) ∧
        (session.perform (.render manner target options)).1.options = session.options := by
  have hholds := h.holds
  constructor
  · intro pattern hvalues call havoids
    cases ends hholds hvalues havoids with
    | failed hreply hkeeps hdiffers =>
      refine ⟨?_, fun _ _ => hkeeps.slot, hkeeps.options⟩
      intro earlier _
      refine iff_of_false (fun hout => ne_error_of_handsOut hout _ hreply) ?_
      rintro ⟨hlatest, fields, hfields, halike⟩
      exact hdiffers fields hfields earlier hlatest halike
    | again hlatest hfields halike hout hkeeps =>
      refine ⟨?_, fun _ _ => hkeeps.slot, hkeeps.options⟩
      intro earlier hearlier
      constructor
      · intro hold
        have hsame := List.inj_on_of_nodup_map hholds.places hearlier
          (List.mem_of_mem_head? hlatest) (handsOut_unique hold hout)
        rw [hsame]
        exact ⟨hlatest, _, hfields, halike⟩
      · rintro ⟨hearliest, _⟩
        rw [hlatest] at hearliest
        cases hearliest
        exact hout
    | anew hfields hdiffers hout hrenews =>
      refine ⟨?_, ?_, hrenews.options⟩
      · -- Both sides are false: what is handed out is new, and the settings differ.
        intro earlier hearlier
        refine iff_of_false (fun hold => ?_) ?_
        · have hlt := lt_length hholds hearlier
          rw [handsOut_unique hold hout] at hlt
          exact absurd hlt (Nat.not_lt.2 hrenews.new)
        · rintro ⟨hlatest, fields, hfields', halike⟩
          rw [hfields] at hfields'
          cases hfields'
          exact hdiffers earlier hlatest halike
      · intro cause hreply
        exact absurd hreply (ne_error_of_handsOut hout cause)
  · intro manner target htarget options hoptions
    have hkeeps := (perform_render_avoids hholds.grown htarget hoptions none).1
    exact ⟨hkeeps.slot, fun slot? =>
      (perform_render_avoids hholds.grown htarget hoptions slot?).2, hkeeps.options⟩

/-- After a render without placeholders a template is written out by its memory, but not rendered
with placeholders, and lines of the template twice leave its memory as it is. -/
theorem one_slot_select :
    let pattern : Pattern := ⟨.statement, [.text "SELECT ", .text ""], [.int 5]⟩
    let target : Value := .fragment (pattern.fragment 0)
    let call := Call.own (.mapping 0 [(withParametersKey, .value (.bool false))])
    let first := (({} : Session).perform (call.step (pattern.fragment 0))).1
    Call.written.HandsOut first 0 pattern 0 ∧ ¬ (Call.own .absent).HandsOut first 0 pattern 0 ∧
      (first.perform (.render .own (.fragment (.lines [target, target] (.text " UNION ")))
        .absent)).1.slots.lookup 0 = first.slots.lookup 0 := by
  intro pattern target call first
  have hvalues : Value.AvoidsEach 0 false pattern.values := ⟨trivial, trivial⟩
  have havoids : ∀ call : Call, call.fields = .ok (inlinedFields []) ∨ call.fields = .ok [] →
      call.Avoids 0 := by
    rintro call (h | h) fields hfields
    · rw [h] at hfields
      cases hfields
      exact ⟨trivial, trivial, trivial, trivial⟩
    · rw [h] at hfields
      cases hfields
      exact ⟨trivial, trivial, trivial, trivial⟩
  have hfirst : first = {
      slots := [(0, ⟨[(withParametersKey, .value (.bool false))], 0⟩)]
      results := [{ sql := .text "SELECT 5" }]
      handouts := [.result 0] } := rfl
  have hreply : (({} : Session).perform (call.step (pattern.fragment 0))).2 =
      .ok (.result { sql := .text "SELECT 5" } none) := rfl
  have hnew : call.HandsOut {} 0 pattern 0 := by
    refine ⟨{ sql := .text "SELECT 5" }, ?_, none, hreply, ?_⟩
    · show first.results[0]? = _
      rw [hfirst]
      rfl
    · show first.handouts.getLast? = _
      rw [hfirst]
      rfl
  have h : Snapshots 0 [⟨[(withParametersKey, .value (.bool false))], 0⟩] first :=
    .new (.start rfl rfl) hvalues (havoids call (.inl rfl)) rfl (Nat.le_refl 0) hnew
  obtain ⟨hcalls, hrenders⟩ := one_slot h
  have halike : Entries.Alike [(withParametersKey, .value (.bool false))] (inlinedFields []) :=
    fieldsAgree?_eq_some_true_iff.1 rfl
  refine ⟨?_, ?_, ?_⟩
  · obtain ⟨hout, _⟩ := hcalls pattern hvalues .written (havoids _ (.inl rfl))
    exact (hout _ (List.mem_singleton_self _)).2 ⟨rfl, _, rfl, halike⟩
  · intro hold
    obtain ⟨hout, _⟩ := hcalls pattern hvalues (.own .absent) (havoids _ (.inr rfl))
    obtain ⟨_, fields, hfields, halike⟩ := (hout _ (List.mem_singleton_self _)).1 hold
    cases hfields
    cases halike.length
  · have htarget : target.Avoids 0 false := ⟨nofun, hvalues⟩
    have hlines : (Value.fragment (.lines [target, target] (.text " UNION "))).Avoids 0 true :=
      ⟨nofun, rfl, htarget, htarget, trivial⟩
    have habsent : Options.absent.Avoids 0 := by
      intro context hcontext
      cases hcontext
      exact ⟨trivial, trivial, trivial, trivial⟩
    exact (hrenders .own _ hlines .absent habsent).1

end Session

end SqlFragments
