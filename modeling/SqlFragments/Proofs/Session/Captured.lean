import SqlFragments.Proofs.Render.Built
import SqlFragments.Proofs.Session.Beside

/-!
# What fragments capture

A fragment that is built from a list of the user takes its members over. The list may grow
afterwards; that shows neither in the fragment nor in anything that the fragment stands in, whether
it was rendered before or not.
-/

namespace SqlFragments

open Outcome

/-! ## What a user does -/

inductive Thing
  | given (v : Value)
  | named (name : String)

/-- The ways to build a fragment from a row of things: literal parts, values to bind, names or
lines. -/
inductive Recipe
  | statement (label : Label) (values : List Thing)
  | functionCall (label : Label) (names : List Thing)
  | conditional (values : List Thing)
  | parameters (separator : Option Value)
  | columns (separator : Option Value)
  | joined (separator : Option Value)

/-- What a user does with lists and fragments: a new list gets a name, a thing gets another name, a
fragment is built from a row, something is put behind a list, or a thing is rendered. -/
inductive Command
  | hold (name : String) (label : Label) (items : List Thing)
  | rename (name : String) (thing : Thing)
  | build (name : String) (recipe : Recipe) (row : Thing)
  | append (name : String) (item : Thing)
  | render (manner : Manner) (target : Thing) (options : Options)

namespace Session

def read (session : Session) : Thing → Except Failure Value
  | .given v => .ok v
  | .named name =>
    match session.value? name with
    | some v => .ok v
    | none => .error .missingKey

end Session

namespace Recipe

def others : Recipe → List Thing
  | statement _ values | conditional values => values
  | functionCall _ names => names
  | _ => []

def separator? : Recipe → Option Value
  | parameters separator | columns separator | joined separator => separator
  | _ => none

def make (row : Value) (others : List Value) : Recipe → Except Failure Fragment
  | statement label _ => Fragment.statement label row others
  | functionCall label _ => Fragment.functionCall label row others
  | conditional _ => Fragment.conditional row others
  | parameters separator => Fragment.parameters row separator
  | columns separator => Fragment.columns row separator
  | joined separator => Fragment.joined row separator

end Recipe

namespace Session

/-- The step that a command is in a session. It fails where a name is missing or a fragment cannot
be built. -/
def stepOf (session : Session) : Command → Except Failure Step
  | .hold name label items => do return .name name (.list label (← items.mapM session.read))
  | .rename name thing => do return .name name (← session.read thing)
  | .build name recipe row => do
    let row ← session.read row
    let others ← recipe.others.mapM session.read
    return .name name (.fragment (← recipe.make row others))
  | .append name item => do return .push name (← session.read item)
  | .render manner target options => do return .render manner (← session.read target) options

def obey (session : Session) (command : Command) : Session × Except Failure Reply :=
  match session.stepOf command with
  | .ok step => session.perform step
  | .error cause => (session.skip, .error cause)

end Session

/-! ## Lists of the user -/

variable {lists late : Set Label} {s t : Session}

/-- A thing that is none of some lists itself. It may be built from them. -/
def Thing.Plain (lists : Set Label) (session : Session) : Thing → Prop
  | given v => v.Apart lists
  | named name => ∀ label items, session.value? name = some (.list label items) → label ∉ lists

def Thing.Settled (lists late : Set Label) (session : Session) : Thing → Prop
  | given v => v.Apart lists
  | named name => ∀ label items, session.value? name = some (.list label items) → label ∉ late

/-- Whether a command takes lists for what they are: something is appended to them, or a fragment
is built from them, but they stand neither in other things nor in options. Those that were appended
to late are not looked at any more. -/
def Command.Allowed (lists late : Set Label) (session : Session) : Command → Prop
  | hold _ label items => label ∈ lists ∧ ∀ item ∈ items, item.Plain lists session
  | rename _ (.given v) => v.Apart lists
  | rename _ (.named _) => True
  | build _ recipe row => row.Settled lists late session ∧
    (∀ thing ∈ recipe.others, thing.Plain lists session) ∧
    ∀ separator, recipe.separator? = some separator → separator.Apart lists
  | append name item => (Thing.named name).Settled lists late session ∧ item.Plain lists session
  | render _ target options => target.Plain lists session ∧ options.Apart lists

/-- A session of commands in which a user holds some lists, and the same session in which the user
also appends to lists late, when no fragment is built from them any more. -/
inductive Session.Grows (lists : Set Label) : Set Label → Session → Session → Prop
  | start {session : Session} (h : session.Apart lists)
    (hnames : ∀ entry ∈ session.names, entry.2.Apart lists) : Grows lists ∅ session session
  | obey {late : Set Label} {s t : Session} (before : Grows lists late s t) {command : Command}
    (h : command.Allowed lists late t) :
    Grows lists late (s.obey command).1 (t.obey command).1
  | append {late : Set Label} {s t : Session} (before : Grows lists late s t) {name : String}
    {label : Label} {items : List Value} (hlist : t.value? name = some (.list label items))
    (hlabel : label ∈ lists) {item : Thing} (hitem : item.Plain lists t) {value : Value}
    (hvalue : t.read item = .ok value) :
    Grows lists (insert label late) s.skip (t.obey (.append name item)).1

/-! ## What names stand for -/

namespace Session

private theorem held_lookup {names names' : List (String × Value)}
    (h : List.Forall₂ (Held lists late) names names') (name : String) :
    (names.lookup name = none ∧ names'.lookup name = none) ∨
      ∃ v w, names.lookup name = some v ∧ names'.lookup name = some w ∧
        Held lists late (name, v) (name, w) := by
  induction h with
  | nil => exact .inl ⟨rfl, rfl⟩
  | @cons entry entry' rest rest' hentry _ ih =>
    obtain ⟨first, v⟩ := entry
    obtain ⟨first', w⟩ := entry'
    have hfirst : first' = first := by
      cases hentry <;> rfl
    subst hfirst
    rw [List.lookup_cons, List.lookup_cons]
    by_cases hname : name = first'
    · subst hname
      right
      exact ⟨v, w, by simp, by simp, hentry⟩
    · have hne : (name == first') = false := beq_false_of_ne hname
      simpa only [hne] using ih

private theorem Beside.held (h : Beside lists late s t) :
    List.Forall₂ (Held lists late) s.names t.names := by
  obtain ⟨_, hheld⟩ := h
  exact hheld

private theorem Beside.apart (h : Beside lists late s t) : s.Apart lists ∧ t.Apart lists := by
  obtain ⟨hs, _⟩ := h
  exact ⟨hs, { hs with }⟩

private theorem held_read (h : Beside lists late s t) (name : String) :
    (∃ cause, s.read (.named name) = .error cause ∧ t.read (.named name) = .error cause) ∨
      ∃ v w, s.read (.named name) = .ok v ∧ t.value? name = some w ∧
        Held lists late (name, v) (name, w) := by
  rcases held_lookup h.held name with ⟨hs, ht⟩ | ⟨v, w, hs, ht, hheld⟩
  · exact .inl ⟨.missingKey, by simp [read, value?, hs], by simp [read, value?, ht]⟩
  · exact .inr ⟨v, w, by simp [read, value?, hs], ht, hheld⟩

private theorem read_named {name : String} {v : Value} (h : t.value? name = some v) :
    t.read (.named name) = .ok v := by
  rw [read, h]

private theorem read_plain (h : Beside lists late s t) {thing : Thing}
    (hthing : thing.Plain lists t) :
    s.read thing = t.read thing ∧ ∀ v, t.read thing = .ok v → v.Apart lists := by
  cases thing with
  | given v =>
    refine ⟨rfl, fun w hw => ?_⟩
    cases hw
    exact hthing
  | named name =>
    rcases held_read h name with ⟨cause, hs, ht⟩ | ⟨v, w, hs, ht, hheld⟩
    · rw [hs, ht]
      exact ⟨rfl, nofun⟩
    · rw [hs, read_named ht]
      cases hheld with
      | value _ hv => exact ⟨rfl, fun _ hv' => by cases hv'; exact hv⟩
      | list _ hlabel => exact absurd hlabel (hthing _ _ ht)

private def IsRow (lists : Set Label) (row : Value) : Prop :=
  row.Apart lists ∨ ∃ label items, row = .list label items ∧ ∀ v ∈ items, v.Apart lists

private theorem read_settled (h : Beside lists late s t) {thing : Thing}
    (hthing : thing.Settled lists late t) :
    s.read thing = t.read thing ∧ ∀ row, t.read thing = .ok row → IsRow lists row := by
  cases thing with
  | given v =>
    refine ⟨rfl, fun w hw => ?_⟩
    cases hw
    exact .inl hthing
  | named name =>
    rcases held_read h name with ⟨cause, hs, ht⟩ | ⟨v, w, hs, ht, hheld⟩
    · rw [hs, ht]
      exact ⟨rfl, nofun⟩
    · rw [hs, read_named ht]
      cases hheld with
      | value _ hv => exact ⟨rfl, fun _ hv' => by cases hv'; exact .inl hv⟩
      | list _ hlabel hitems hothers hsame =>
        rw [hsame (hthing _ _ ht)]
        exact ⟨rfl, fun _ hrow => by cases hrow; exact .inr ⟨_, _, rfl, hitems⟩⟩

private theorem read_each (h : Beside lists late s t) {things : List Thing}
    (hthings : ∀ thing ∈ things, thing.Plain lists t) :
    things.mapM s.read = things.mapM t.read ∧
      ∀ vs, things.mapM t.read = .ok vs → ∀ v ∈ vs, v.Apart lists := by
  induction things with
  | nil =>
    refine ⟨rfl, fun vs hvs => ?_⟩
    cases hvs
    exact fun _ hv => by cases hv
  | cons thing rest ih =>
    rw [List.forall_mem_cons] at hthings
    obtain ⟨hsame, hfirst⟩ := read_plain h hthings.1
    obtain ⟨hrest, hothers⟩ := ih hthings.2
    rw [List.mapM_cons, List.mapM_cons, hsame, hrest]
    refine ⟨rfl, fun vs hvs => ?_⟩
    obtain ⟨v, hv, hvs⟩ := bind_eq_ok.1 hvs
    obtain ⟨others, ho, hvs⟩ := bind_eq_ok.1 hvs
    cases hvs
    exact List.forall_mem_cons.2 ⟨hfirst v hv, hothers others ho⟩

/-! ## Building -/

private theorem IsRow.items {row : Value} (h : IsRow lists row) {items : List Value}
    (hitems : row.items? = some items) : ∀ v ∈ items, v.Apart lists := by
  rcases h with hapart | ⟨label, members, rfl, hmembers⟩
  · cases row with
    | list label members =>
      cases hitems
      exact (Value.apart_list_iff.1 hapart).2
    | tuple members =>
      cases hitems
      exact Value.apart_tuple_iff.1 hapart
    | _ => cases hitems
  · cases hitems
    exact hmembers

private theorem apart_literalParts {row : Value} (h : IsRow lists row) {kind : Kind} {count : Nat}
    {parts : List Value} (hparts : Fragment.literalParts kind row count = .ok parts) :
    ∀ v ∈ parts, v.Apart lists := by
  unfold Fragment.literalParts at hparts
  split at hparts
  · cases hparts
  · next items hitems =>
    split at hparts
    · cases hparts
      exact h.items hitems
    · cases hparts

private theorem apart_members {row : Value} (h : IsRow lists row) {kind : Kind}
    {items : List Value} (hitems : Fragment.members kind row = .ok items) :
    ∀ v ∈ items, v.Apart lists := by
  unfold Fragment.members at hitems
  split at hitems
  · next members hmembers =>
    cases hitems
    exact h.items hmembers
  · cases hitems

private theorem apart_named {v : Value} {f : Fragment} (h : Fragment.named v = .ok f) :
    (Value.fragment f).Apart lists := by
  cases v with
  | text name =>
    cases h
    rw [Value.apart_fragment_iff]
    split
    · exact List.forall_mem_singleton.2 (Value.apart_text _)
    · exact fun _ hv => by cases hv
  | _ => cases h

theorem Recipe.apart_make {recipe : Recipe} {row : Value} {others : List Value} {f : Fragment}
    (hrow : IsRow lists row) (hothers : ∀ v ∈ others, v.Apart lists)
    (hseparator : ∀ separator, recipe.separator? = some separator → separator.Apart lists)
    (h : recipe.make row others = .ok f) : (Value.fragment f).Apart lists := by
  have hgetD : ∀ usual : String,
      (recipe.separator?.getD (.text usual)).Apart lists := by
    intro usual
    cases hgiven : recipe.separator? with
    | none => exact Value.apart_text usual
    | some separator => exact hseparator separator hgiven
  rw [Value.apart_fragment_iff]
  cases recipe with
  | statement label values =>
    obtain ⟨parts, hparts, h⟩ := bind_eq_ok.1 h
    cases h
    exact List.forall_mem_append.2 ⟨apart_literalParts hrow hparts, hothers⟩
  | functionCall label names =>
    obtain ⟨parts, hparts, h⟩ := bind_eq_ok.1 h
    obtain ⟨fragments, hfragments, h⟩ := bind_eq_ok.1 h
    cases h
    refine List.forall_mem_append.2 ⟨apart_literalParts hrow hparts, ?_⟩
    rw [List.forall_mem_map]
    intro f hf
    obtain ⟨name, hname⟩ := (Fragment.named_of_mapM hfragments).2 f hf
    exact apart_named hname
  | conditional values =>
    obtain ⟨value, parts, rfl, hparts, rfl⟩ := Fragment.conditional_eq_ok h
    rw [List.forall_mem_singleton] at hothers
    exact List.forall_mem_cons.2 ⟨hothers, apart_literalParts hrow hparts⟩
  | parameters separator =>
    obtain ⟨items, hitems, h⟩ := bind_eq_ok.1 h
    cases h
    exact List.forall_mem_cons.2 ⟨hgetD _, apart_members hrow hitems⟩
  | columns separator =>
    obtain ⟨items, hitems, h⟩ := bind_eq_ok.1 h
    cases h
    exact List.forall_mem_cons.2 ⟨hgetD _, apart_members hrow hitems⟩
  | joined separator =>
    obtain ⟨items, hitems, h⟩ := bind_eq_ok.1 h
    cases h
    exact List.forall_mem_cons.2 ⟨hgetD _, apart_members hrow hitems⟩

/-! ## Commands -/

private theorem held_rename {names names' : List (String × Value)}
    (h : List.Forall₂ (Held lists late) names names') {name : String} {v w : Value}
    (hentry : Held lists late (name, v) (name, w)) :
    List.Forall₂ (Held lists late) (rename names name v) (rename names' name w) := by
  refine .cons hentry ?_
  induction h with
  | nil => exact .nil
  | @cons entry entry' rest rest' hfirst _ ih =>
    have hsame : entry'.1 = entry.1 := by
      cases hfirst <;> rfl
    rw [List.filter_cons, List.filter_cons, hsame]
    split
    · exact .cons hfirst ih
    · exact ih

private theorem Beside.skip (h : Beside lists late s t) : Beside lists late s.skip t.skip := by
  obtain ⟨hs, hheld⟩ := h
  have hhandouts := List.forall_mem_append.2
    ⟨hs.handouts, List.forall_mem_singleton.2 (show Handout.Apart lists (.value .null) from
      Value.apart_null)⟩
  exact ⟨{ hs with handouts := hhandouts }, hheld⟩

private theorem Beside.name (h : Beside lists late s t) {name : String} {v w : Value}
    (hentry : Held lists late (name, v) (name, w)) :
    Beside lists late (s.perform (.name name v)).1 (t.perform (.name name w)).1 := by
  rw [perform_ok rfl rfl, perform_ok rfl rfl]
  apply Beside.skip
  obtain ⟨hs, hheld⟩ := h
  exact ⟨{ hs with }, held_rename hheld hentry⟩

section

variable {label : Label} {items : List Value}

private theorem apply_fields {fields : Entries Setting} (hlabel : label ∈ lists)
    (h : ∀ field ∈ fields, field.2.Unmoved lists) :
    (fields.map fun (key, setting) => (key, setting.apply (.members label items))) = fields :=
  map_eq_self_iff.2 fun field hfield => Prod.ext rfl (h field hfield label hlabel items)

private theorem Apart.slots_eq (h : s.Apart lists) (hlabel : label ∈ lists) :
    (s.slots.map fun (l, slot) => (l, { slot with
      fields := slot.fields.map fun (key, setting) =>
        (key, setting.apply (.members label items)) })) = s.slots := by
  refine map_eq_self_iff.2 fun slot hslot => Prod.ext rfl ?_
  exact congrArg (fun fields => { slot.2 with fields }) (apply_fields hlabel (h.slots slot hslot))

private theorem Apart.handouts_eq (h : s.Apart lists) (hlabel : label ∈ lists)
    (items : List Value) :
    (s.handouts.map fun
      | .value v => .value (v.apply (.members label items))
      | .result place => .result place) = s.handouts := by
  refine map_eq_self_iff.2 fun handout hhandout => ?_
  have hapart := h.handouts handout hhandout
  cases handout with
  | result place => rfl
  | value v => exact congrArg Handout.value (hapart label hlabel items)

private theorem Apart.change_eq (h : s.Apart lists) (hlabel : label ∈ lists) :
    s.change (.members label items) = { s with
      names := s.names.map fun (name, v) => (name, v.apply (.members label items))
      options := s.options.map fun (name, options) => (name, options.apply (.members label items))
      calls := s.calls.map (·.apply (.members label items)) } := by
  have hresults : s.results.map (·.apply (.members label items)) = s.results :=
    map_eq_self_iff.2 fun r hr => (h.results r hr).unmoved hlabel items
  have hhandouts := h.handouts_eq hlabel items
  rw [Session.change, h.slots_eq hlabel, hresults]
  congr 1

private theorem apply_items {vs : List Value} (h : ∀ v ∈ vs, v.Apart lists)
    (hlabel : label ∈ lists) :
    vs.map (·.apply (.members label items)) = vs :=
  map_eq_self_iff.2 fun v hv => h v hv label hlabel items

private theorem apply_list (l : Label) {vs : List Value} (h : ∀ v ∈ vs, v.Apart lists)
    (hlabel : label ∈ lists) :
    (Value.list l vs).apply (.members label items) = .list l (if l = label then items else vs) := by
  simp only [Value.apply, Change.here, Value.applyEach_eq_map, apply_items h hlabel]

private theorem Beside.change_held (h : Beside lists late s t) (hlabel : label ∈ lists)
    (hitems : ∀ v ∈ items, v.Apart lists) :
    Beside lists late (s.change (.members label items)) (t.change (.members label items)) := by
  obtain ⟨hapart, hapart'⟩ := h.apart
  rw [hapart.change_eq hlabel, hapart'.change_eq hlabel]
  obtain ⟨hs, hheld⟩ := h
  refine ⟨{ hs with }, List.rel_map (fun entry entry' hentry => ?_) hheld⟩
  cases hentry with
  | value name hv =>
    simp only [hv label hlabel items]
    exact .value name hv
  | @list name l members others hl hmembers hothers hsame =>
    simp only [apply_list l hmembers hlabel, apply_list l hothers hlabel]
    split
    · exact .list name hl hitems hitems fun _ => rfl
    · exact .list name hl hmembers hothers hsame

private theorem Beside.change_late (h : Beside lists late s t) (hlabel : label ∈ lists)
    (hitems : ∀ v ∈ items, v.Apart lists) :
    Beside lists (insert label late) s (t.change (.members label items)) := by
  rw [h.apart.2.change_eq hlabel]
  obtain ⟨hs, hheld⟩ := h
  refine ⟨hs, List.forall₂_map_right_iff.2 (hheld.imp fun entry entry' hentry => ?_)⟩
  cases hentry with
  | value name hv =>
    simp only [hv label hlabel items]
    exact .value name hv
  | @list name l members others hl hmembers hothers hsame =>
    simp only [apply_list l hothers hlabel]
    split
    · next he =>
      refine .list name hl hmembers hitems fun hlate => ?_
      exact absurd (he ▸ Set.mem_insert label late) hlate
    · refine .list name hl hmembers hothers fun hlate => hsame ?_
      exact fun hmem => hlate (Set.mem_insert_of_mem label hmem)

private theorem Beside.change (h : Beside lists late s t) {change : Change}
    (hchange : change.Apart lists) : Beside lists late (s.change change) (t.change change) := by
  obtain ⟨hs, hheld⟩ := h
  exact ⟨hs.change hchange, List.rel_map (fun _ _ h => h.apply hchange) hheld⟩

end

private def pushed (v value : Value) : Except Failure Change :=
  match v with
  | .list label items => .ok (.members label (items ++ [value]))
  | .bytes (.changeable label) data =>
    (Literal.byteOfValue value).map fun byte => .bytes label (data ++ [byte])
  | _ => .error .missingAttribute

private theorem perform?_push {name : String} {v : Value} (h : s.value? name = some v)
    (value : Value) :
    s.perform? (.push name value) =
      (pushed v value).map fun change => (s.change change, .value (v.apply change)) := by
  cases v with
  | bytes form data =>
    cases form with
    | changeable label =>
      simp only [perform?, h, pushed]
      cases Literal.byteOfValue value <;> rfl
    | _ =>
      simp only [perform?, h]
      rfl
  | _ =>
    simp only [perform?, h]
    rfl

private theorem perform_push_error {name : String} {v : Value} (h : s.value? name = some v)
    {value : Value} {cause : Failure} (hpushed : pushed v value = .error cause) :
    (s.perform (.push name value)).1 = s.skip := by
  have hperform := perform?_push h value
  rw [hpushed] at hperform
  rw [perform_error rfl hperform]

private theorem perform_push_ok {name : String} {v : Value} (h : s.value? name = some v)
    {value : Value} {change : Change} (hpushed : pushed v value = .ok change) :
    (s.perform (.push name value)).1 = (s.change change).skip := by
  have hperform := perform?_push h value
  rw [hpushed] at hperform
  rw [perform_ok rfl hperform]

private theorem apart_pushed {v value : Value} (hv : v.Apart lists) (hvalue : value.Apart lists)
    {change : Change} (h : pushed v value = .ok change) : change.Apart lists := by
  unfold pushed at h
  split at h
  · next label items =>
    cases h
    obtain ⟨hlabel, hitems⟩ := Value.apart_list_iff.1 hv
    exact ⟨hlabel, List.forall_mem_append.2 ⟨hitems, List.forall_mem_singleton.2 hvalue⟩⟩
  · obtain ⟨_, _, rfl⟩ := map_eq_ok.1 h
    trivial
  · cases h

private theorem Beside.push (h : Beside lists late s t) {name : String}
    (hname : (Thing.named name).Settled lists late t) {value : Value} (hvalue : value.Apart lists) :
    Beside lists late (s.perform (.push name value)).1 (t.perform (.push name value)).1 := by
  rcases held_lookup h.held name with ⟨hs, ht⟩ | ⟨v, w, hs, ht, hheld⟩
  · have hmissing : ∀ session : Session, session.value? name = none →
        session.perform? (.push name value) = .error .missingKey := by
      intro session hnone
      simp only [perform?, hnone]
      rfl
    rw [perform_error rfl (hmissing s hs), perform_error rfl (hmissing t ht)]
    exact h.skip
  · cases hheld with
    | list _ hlabel hitems hothers hsame =>
      rw [hsame (hname _ _ ht)] at ht
      rw [perform_push_ok hs rfl, perform_push_ok ht rfl]
      have hmore := List.forall_mem_append.2 ⟨hitems, List.forall_mem_singleton.2 hvalue⟩
      exact (h.change_held hlabel hmore).skip
    | value _ hv =>
      cases hpushed : pushed v value with
      | error cause =>
        rw [perform_push_error hs hpushed, perform_push_error ht hpushed]
        exact h.skip
      | ok change =>
        rw [perform_push_ok hs hpushed, perform_push_ok ht hpushed]
        exact (h.change (apart_pushed hv hvalue hpushed)).skip

private theorem Beside.push_late (h : Beside lists late s t) {name : String} {label : Label}
    {items : List Value} (hlist : t.value? name = some (.list label items))
    (hlabel : label ∈ lists) {value : Value} (hvalue : value.Apart lists) :
    Beside lists (insert label late) s.skip (t.perform (.push name value)).1 := by
  rw [perform_push_ok hlist rfl]
  apply Beside.skip
  apply h.change_late hlabel
  rcases held_lookup h.held name with ⟨_, hnone⟩ | ⟨v, w, _, hsome, hheld⟩
  · have hlookup := hlist.symm.trans hnone
    cases hlookup
  · have hlookup := hlist.symm.trans hsome
    cases hlookup
    have hitems : ∀ v ∈ items, v.Apart lists := by
      cases hheld with
      | value _ hv => exact (Value.apart_list_iff.1 hv).2
      | list _ _ _ hothers => exact hothers
    exact List.forall_mem_append.2 ⟨hitems, List.forall_mem_singleton.2 hvalue⟩

/-! ## Sessions with and without what is appended late -/

private theorem beside_obey {command : Command} (hstep : s.stepOf command = t.stepOf command)
    (h : Beside lists late s t)
    (hok : ∀ step, t.stepOf command = .ok step →
      Beside lists late (s.perform step).1 (t.perform step).1) :
    Beside lists late (s.obey command).1 (t.obey command).1 := by
  unfold obey
  rw [hstep]
  cases hcommand : t.stepOf command with
  | error cause => exact h.skip
  | ok step => exact hok step hcommand

private theorem Beside.obey (h : Beside lists late s t) {command : Command}
    (hallowed : command.Allowed lists late t) :
    Beside lists late (s.obey command).1 (t.obey command).1 := by
  cases command with
  | hold name label items =>
    obtain ⟨hsame, hapart⟩ := read_each h hallowed.2
    refine beside_obey ?_ h fun step hstep => ?_
    · rw [stepOf, stepOf, hsame]
    · obtain ⟨vs, hvs, hstep⟩ := bind_eq_ok.1 hstep
      cases hstep
      exact h.name (.list name hallowed.1 (hapart vs hvs) (hapart vs hvs) fun _ => rfl)
  | rename name thing =>
    cases thing with
    | given v => exact h.name (.value name hallowed)
    | named known =>
      -- An alias of a list of the user may have other members in the second session.
      rcases held_read h known with ⟨cause, hs, ht⟩ | ⟨v, w, hs, ht, hheld⟩
      · simp only [Session.obey, stepOf, hs, ht]
        exact h.skip
      · simp only [Session.obey, stepOf, hs, read_named ht]
        apply h.name
        cases hheld with
        | value _ hv => exact .value name hv
        | list _ hlabel hitems hothers hsame => exact .list name hlabel hitems hothers hsame
  | build name recipe row =>
    obtain ⟨hrow, hothers, hseparator⟩ := hallowed
    obtain ⟨hsame, hisRow⟩ := read_settled h hrow
    obtain ⟨hsames, hapart⟩ := read_each h hothers
    refine beside_obey ?_ h fun step hstep => ?_
    · rw [stepOf, stepOf, hsame, hsames]
    · obtain ⟨row, hread, hstep⟩ := bind_eq_ok.1 hstep
      obtain ⟨others, hreads, hstep⟩ := bind_eq_ok.1 hstep
      obtain ⟨f, hf, hstep⟩ := bind_eq_ok.1 hstep
      cases hstep
      exact h.name (.value name (Recipe.apart_make (hisRow row hread) (hapart others hreads)
        hseparator hf))
  | append name item =>
    obtain ⟨hname, hitem⟩ := hallowed
    obtain ⟨hsame, hapart⟩ := read_plain h hitem
    refine beside_obey ?_ h fun step hstep => ?_
    · rw [stepOf, stepOf, hsame]
    · obtain ⟨value, hvalue, hstep⟩ := bind_eq_ok.1 hstep
      cases hstep
      exact h.push hname (hapart value hvalue)
  | render manner target options =>
    obtain ⟨htarget, hoptions⟩ := hallowed
    obtain ⟨hsame, hapart⟩ := read_plain h htarget
    refine beside_obey ?_ h fun step hstep => ?_
    · rw [stepOf, stepOf, hsame]
    · obtain ⟨value, hvalue, hstep⟩ := bind_eq_ok.1 hstep
      cases hstep
      exact (h.perform_render manner (hapart value hvalue) hoptions).1

theorem Grows.beside (h : Grows lists late s t) : Beside lists late s t := by
  induction h with
  | @start session hapart hnames =>
    refine ⟨hapart, List.forall₂_same.2 fun entry hentry => ?_⟩
    exact .value entry.1 (hnames entry hentry)
  | obey before hallowed ih => exact ih.obey hallowed
  | @append late s t before name label items hlist hlabel item hitem value hvalue ih =>
    have hobey : (t.obey (.append name item)).1 = (t.perform (.push name value)).1 := by
      simp only [Session.obey, stepOf, hvalue]
      rfl
    rw [hobey]
    exact ih.push_late hlist hlabel ((read_plain ih hitem).2 value hvalue)

/-- A render gives what it gives without whatever the user appended late to the lists that fragments
were built from: the same result, or the same failure, whether a template remembers it or not. The
session without has all that the user does besides. -/
theorem render_of_grows (h : Grows lists late s t) (manner : Manner) {target : Thing}
    (htarget : target.Plain lists t) {options : Options} (hoptions : options.Apart lists) :
    (t.obey (.render manner target options)).2 = (s.obey (.render manner target options)).2 := by
  have hbeside := h.beside
  obtain ⟨hsame, hapart⟩ := read_plain hbeside htarget
  simp only [Session.obey, stepOf, hsame]
  cases hread : t.read target with
  | error cause => rfl
  | ok value => exact (hbeside.perform_render manner (hapart value hread) hoptions).2

/-- A statement from a list of literal parts, with placeholders for a list of values, is rendered;
then both lists grow, and it is rendered again. -/
theorem render_of_grows_select :
    let first := [Command.hold "parts" 0 [.given (.text "SELECT "), .given (.text "")],
      .hold "values" 1 [.given (.int 1), .given (.int 2)],
      .build "list" (.parameters none) (.named "values"),
      .build "query" (.statement 2 [.named "list"]) (.named "parts"),
      .render .own (.named "query") .absent].foldl (fun s command => (s.obey command).1)
        ({} : Session)
    let later := [Command.append "values" (.given (.int 3)),
      .append "parts" (.given (.text "!"))].foldl (fun s command => (s.obey command).1) first
    (later.value? "values" = some (.list 1 [.int 1, .int 2, .int 3]) ∧
      later.value? "parts" = some (.list 0 [.text "SELECT ", .text "", .text "!"])) ∧
    (later.obey (.render .own (.named "query") .absent)).2 =
      (first.skip.skip.obey (.render .own (.named "query") .absent)).2 ∧
    (first.skip.skip.obey (.render .own (.named "query") .absent)).2 =
      .ok (.result { sql := .text "SELECT ?, ?", bindings := [.int 1, .int 2] } (some 4)) := by
  intro first later
  have habsent : Options.absent.Apart {0, 1} := by
    intro fields hfields
    cases hfields
    exact fun _ hfield => by cases hfield
  have hstart : Grows {0, 1} ∅ ({} : Session) {} :=
    .start ⟨nofun, nofun, nofun, nofun⟩ nofun
  have hplain : ∀ (session : Session) (name : String) (f : Fragment),
      session.value? name = some (.fragment f) → (Thing.named name).Plain {0, 1} session := by
    intro session name f hname label items hlist
    rw [hname] at hlist
    cases hlist
  have hobey : ∀ {s t : Session} (command : Command), Grows {0, 1} ∅ s t →
      command.Allowed {0, 1} ∅ t → Grows {0, 1} ∅ (s.obey command).1 (t.obey command).1 :=
    fun _ h hallowed => h.obey hallowed
  have hparts := hobey (.hold "parts" 0 [.given (.text "SELECT "), .given (.text "")]) hstart
    ⟨by simp, by simp [Thing.Plain]⟩
  have hvalues := hobey (.hold "values" 1 [.given (.int 1), .given (.int 2)]) hparts
    ⟨by simp, by simp [Thing.Plain]⟩
  have hlist := hobey (.build "list" (.parameters none) (.named "values")) hvalues
    ⟨fun _ _ _ => Set.notMem_empty _, nofun, nofun⟩
  have hquery := hobey (.build "query" (.statement 2 [.named "list"]) (.named "parts")) hlist
    ⟨fun _ _ _ => Set.notMem_empty _, List.forall_mem_singleton.2 (hplain _ _ _ rfl), nofun⟩
  have hfirst : Grows {0, 1} ∅ first first :=
    hobey (.render .own (.named "query") .absent) hquery ⟨hplain _ _ _ rfl, habsent⟩
  have hlonger : Grows {0, 1} _ first.skip (first.obey (.append "values" (.given (.int 3)))).1 :=
    hfirst.append rfl (by simp) (Value.apart_int 3) rfl
  have hlater : Grows {0, 1} _ first.skip.skip later :=
    hlonger.append rfl (by simp) (Value.apart_text "!") rfl
  refine ⟨⟨rfl, rfl⟩, ?_, rfl⟩
  exact render_of_grows hlater .own (hplain _ _ _ rfl) habsent

end Session

end SqlFragments
