import SqlFragments.Proofs.Journal.Format
import SqlFragments.Proofs.Session.Steady
import SqlFragments.Session.Basic

/-!
# Memory of a session

A session whose memory is right for a book stays so: what a render does on the way only adds
results to memory that the templates of the book have without it. What other templates remember
is not touched.
-/

namespace SqlFragments

open Outcome

variable {book : Book}

namespace Session

/-! ## Slots -/

theorem lookup_filter_of_ne {label other : Label} (h : label ≠ other)
    (slots : List (Label × Slot)) :
    (slots.filter (·.1 != other)).lookup label = slots.lookup label := by
  induction slots with
  | nil => rfl
  | cons slot rest ih =>
    obtain ⟨l, slot⟩ := slot
    by_cases hl : l = other
    · have hne : (label == l) = false := by
        rw [hl]
        exact beq_false_of_ne h
      rw [List.filter_cons_of_neg (by simp [hl]), List.lookup_cons, hne, ih]
    · rw [List.filter_cons_of_pos (by simp [hl]), List.lookup_cons, List.lookup_cons, ih]

theorem lookup_remember_self (session : Session) (label : Label) (fields : Entries Setting)
    (place : Nat) :
    (session.remember label fields place).slots.lookup label = some ⟨fields, place⟩ :=
  List.lookup_cons_self

theorem lookup_remember_of_ne (session : Session) {label other : Label} (h : label ≠ other)
    (fields : Entries Setting) (place : Nat) :
    (session.remember other fields place).slots.lookup label = session.slots.lookup label := by
  have hne : (label == other) = false := beq_false_of_ne h
  rw [remember, List.lookup_cons, hne]
  exact lookup_filter_of_ne h session.slots

theorem getElem?_keep (session : Session) (r : Result) :
    (session.keep r).1.results[(session.keep r).2]? = some r :=
  List.getElem?_concat_length

/-! ## Right memory -/

/-- What templates of a book remember is what they are written out as without memory. -/
structure Recalls (session : Session) (book : Book) : Prop where
  hostMinutes : session.hostMinutes = book.hostMinutes
  slots : ∀ label pattern slot, book.pattern? label = some pattern →
    session.slots.lookup label = some slot →
      slot.fields = inlinedFields [] ∧ ∃ r, session.results[slot.result]? = some r ∧
        book.rendered .inlined (pattern.fragment label) = .ok (.result r)

private theorem fieldsAgree_inlined :
    fieldsAgree? (inlinedFields []) (inlinedFields []) = some true :=
  rfl

theorem Recalls.describes {session : Session} (h : session.Recalls book) :
    book.Describes session.environment := by
  refine ⟨h.hostMinutes, ?_⟩
  intro label pattern hpattern
  cases hslot : session.slots.lookup label with
  | none =>
    left
    simp [environment, stored?, hslot, Except.map]
  | some slot =>
    right
    obtain ⟨hfields, r, hresult, hr⟩ := h.slots label pattern slot hpattern hslot
    refine ⟨r, hr, ?_⟩
    simp [environment, stored?, hslot, hfields, fieldsAgree_inlined, Except.map, hresult]

/-- A session after another whose memory of a book is right, in which other templates remember
what they did and no result was taken away. -/
structure Follows (book : Book) (before after : Session) : Prop where
  recalls : after.Recalls book
  grown : after.grown = []
  results : ∀ (place : Nat) (r : Result), before.results[place]? = some r →
    after.results[place]? = some r
  others : ∀ label, book.pattern? label = none →
    after.slots.lookup label = before.slots.lookup label

namespace Follows

protected theorem refl {session : Session} (h : session.Recalls book)
    (hgrown : session.grown = []) : Follows book session session :=
  ⟨h, hgrown, fun _ _ h => h, fun _ _ => rfl⟩

protected theorem trans {first second third : Session} (h : Follows book first second)
    (h' : Follows book second third) : Follows book first third where
  recalls := h'.recalls
  grown := h'.grown
  results place r hr := h'.results place r (h.results place r hr)
  others label hl := (h'.others label hl).trans (h.others label hl)

theorem of_eq {before after : Session} (h : before.Recalls book)
    (hgrown : after.grown = []) (hslots : after.slots = before.slots)
    (hresults : after.results = before.results)
    (hhost : after.hostMinutes = before.hostMinutes) : Follows book before after where
  recalls := by
    refine ⟨hhost.trans h.hostMinutes, ?_⟩
    rw [hslots, hresults]
    exact h.slots
  grown := hgrown
  results place r hr := by rwa [hresults]
  others label _ := by rw [hslots]

end Follows

/-- A session after another in which templates remember what they did. -/
structure Spares (before after : Session) : Prop where
  hostMinutes : after.hostMinutes = before.hostMinutes
  slots : after.slots = before.slots
  results : ∀ (place : Nat) (r : Result), before.results[place]? = some r →
    after.results[place]? = some r

theorem follows_remember {session : Session} (h : session.Recalls book)
    (hgrown : session.grown = []) {label : Label} {pattern : Pattern}
    (hpattern : book.pattern? label = some pattern) {r : Result}
    (hr : book.rendered .inlined (pattern.fragment label) = .ok (.result r)) :
    Follows book session
      ((session.keep r).1.remember label (inlinedFields []) (session.keep r).2) := by
  have hkept : ∀ (place : Nat) (r' : Result), session.results[place]? = some r' →
      (session.keep r).1.results[place]? = some r' := by
    intro place r' hplace
    obtain ⟨hlt, _⟩ := List.getElem?_eq_some_iff.1 hplace
    exact (List.getElem?_append_left hlt).trans hplace
  refine ⟨⟨h.hostMinutes, ?_⟩, hgrown, hkept, ?_⟩
  · intro other pattern' slot hpattern' hslot
    by_cases hother : other = label
    · subst hother
      rw [lookup_remember_self] at hslot
      cases hslot
      rw [hpattern] at hpattern'
      cases hpattern'
      exact ⟨rfl, r, getElem?_keep session r, hr⟩
    · rw [lookup_remember_of_ne _ hother] at hslot
      obtain ⟨hfields, r', hplace, hr'⟩ := h.slots other pattern' slot hpattern' hslot
      exact ⟨hfields, r', hkept _ _ hplace, hr'⟩
  · intro other hnone
    have hother : other ≠ label := by
      rintro rfl
      rw [hpattern] at hnone
      cases hnone
    exact lookup_remember_of_ne _ hother _ _

/-! ## Notes -/

theorem settle_of_still {α : Type} {session : Session} (hgrown : session.grown = [])
    (apply : Change → α → α) (a : α) : session.settle apply a = a := by
  rw [settle, hgrown]
  rfl

def Announces (book : Book) (announce : Session → Event → Session) : Prop :=
  ∀ session kindName withParameters timezone method, session.Recalls book → session.grown = [] →
    timezone.Filed book → method.Filed book →
    Follows book session
      (announce session (.rendering kindName withParameters timezone method))

mutual

theorem follows_note {announce : Session → Event → Session} (hannounce : Announces book announce)
    (event : Event) (hevent : event.Filed book) {session : Session} (h : session.Recalls book)
    (hgrown : session.grown = []) : Follows book session (note announce session event) := by
  match event with
  | .rendering kindName withParameters timezone method =>
    cases hevent with
    | rendering _ _ htimezone hmethod =>
      rw [note, settle_of_still hgrown, settle_of_still hgrown]
      exact hannounce session _ _ _ _ h hgrown htimezone hmethod
  | .literalEscaped value timezone => exact .of_eq h hgrown rfl rfl rfl
  | .identifierEscaped name => exact .of_eq h hgrown rfl rfl rfl
  | .leafRendered label => exact .of_eq h hgrown rfl rfl rfl
  | .extended separator added => cases hevent
  | .inlined label trace result =>
    cases hevent with
    | inlined hpattern htrace hresult =>
      rw [note]
      split
      · have hnoted := follows_noteAll hannounce trace htrace h hgrown
        cases result with
        | none => exact hnoted
        | some r =>
          show Follows book session
            (((noteAll announce session trace).keep
              ((noteAll announce session trace).settle Result.apply r)).1.remember label
              (inlinedFields []) _)
          rw [settle_of_still hnoted.grown]
          exact hnoted.trans (follows_remember hnoted.recalls hnoted.grown hpattern (hresult r rfl))
      · exact .refl h hgrown
termination_by structural event

theorem follows_noteAll {announce : Session → Event → Session}
    (hannounce : Announces book announce) (trace : List Event)
    (htrace : ∀ event ∈ trace, event.Filed book) {session : Session} (h : session.Recalls book)
    (hgrown : session.grown = []) : Follows book session (noteAll announce session trace) := by
  match trace with
  | [] => exact .refl h hgrown
  | event :: rest =>
    rw [List.forall_mem_cons] at htrace
    have hfirst := follows_note hannounce event htrace.1 h hgrown
    exact hfirst.trans (follows_noteAll hannounce rest htrace.2 hfirst.recalls hfirst.grown)
termination_by structural trace

end

/-! ## The journal -/

private theorem follows_writeDown {note : Session → List Event → Session}
    (hnote : ∀ session trace, session.Recalls book → session.grown = [] →
      (∀ event ∈ trace, event.Filed book) → Follows book session (note session trace))
    {kindName : String} {withParameters : Bool} {timezone method : Value}
    (htimezone : timezone.Filed book) (hmethod : method.Filed book) {record : Journal.Record}
    (hrecord : Journal.Record.ofEvent? (.rendering kindName withParameters timezone method) =
      some record) (handlers : List Journal.Handler) {session : Session}
    (h : session.Recalls book) (hgrown : session.grown = []) :
    Follows book session (writeDown note record session handlers) := by
  induction handlers generalizing session with
  | nil => exact .refl h hgrown
  | cons handler rest ih =>
    rw [writeDown]
    have hformat := (book.comparison h.describes).format handler htimezone hmethod hrecord
    have hnoted := hnote session _ h hgrown hformat.trace
    cases hline : (handler.format session.environment record).answer with
    | error cause => exact hnoted.trans (ih hnoted.recalls hnoted.grown)
    | ok line =>
      have hwritten : Follows book session
          { note session (handler.format session.environment record).trace with
            lines := (note session (handler.format session.environment record).trace).lines ++
              [(handler.target, line)] } :=
        hnoted.trans (.of_eq hnoted.recalls hnoted.grown rfl rfl rfl)
      exact hwritten.trans (ih hwritten.recalls hwritten.grown)

private theorem announces_announceWith {note : Session → List Event → Session}
    (hnote : ∀ session trace, session.Recalls book → session.grown = [] →
      (∀ event ∈ trace, event.Filed book) → Follows book session (note session trace)) :
    Announces book (announceWith note) := by
  intro session kindName withParameters timezone method h hgrown htimezone hmethod
  exact follows_writeDown hnote htimezone hmethod rfl _ h hgrown

theorem follows_witness {session : Session} (h : session.Recalls book) (hgrown : session.grown = [])
    {trace : List Event} (htrace : ∀ event ∈ trace, event.Filed book) :
    Follows book session (session.witness trace) := by
  have hinner : Announces book (announceWith fun session _ => session) :=
    announces_announceWith fun _ _ h hgrown _ => .refl h hgrown
  have houter : Announces book
      (announceWith (noteAll (announceWith fun session _ => session))) :=
    announces_announceWith fun _ trace h hgrown htrace =>
      follows_noteAll hinner trace htrace h hgrown
  exact follows_noteAll houter trace htrace h hgrown

end Session

end SqlFragments
