import Mathlib.Data.Set.Basic
import SqlFragments.Proofs.Outcome
import SqlFragments.Value.Sum

/-!
# Values apart from lists

A list that gets other members changes every value that it stands in. A value that it does not
stand in is apart from it, and stays so when other things change that are apart from it themselves.
-/

namespace SqlFragments

/-! ## What stands in a value -/

def Fragment.inside : Fragment → List Value
  | raw value => [value]
  | identifier _ => []
  | parameter value => [value]
  | parameterList values separator => separator :: values
  | columnList columns separator => separator :: columns
  | lines members separator => separator :: members
  | clause strings value => value :: strings
  | template _ _ strings values => strings ++ values
  | leaf _ _ text bindings assigned => text :: (bindings ++ assigned.map (·.2))
  | probe _ assigned => assigned.map (·.2)
  | deferred _ target assigned => target :: assigned.map (·.2)
  | endless _ assigned => assigned.map (·.2)
  | unrenderable _ _ assigned => assigned.map (·.2)

def Value.inside : Value → List Value
  | list _ items => items
  | tuple items => items
  | dict _ entries => entries.map (·.1) ++ entries.map (·.2)
  | fragment f => f.inside
  | _ => []

private theorem sizeOf_lt_fields {fields : List (String × Value)} {v : Value}
    (h : v ∈ fields.map (·.2)) : sizeOf v < sizeOf fields := by
  obtain ⟨field, hmem, rfl⟩ := List.mem_map.1 h
  have hfield := List.sizeOf_lt_of_mem hmem
  obtain ⟨name, v⟩ := field
  simp only [Prod.mk.sizeOf_spec] at hfield ⊢
  omega

private theorem sizeOf_lt_entries {entries : List (Value × Value)} {v : Value}
    (h : v ∈ entries.map (·.1) ++ entries.map (·.2)) : sizeOf v < sizeOf entries := by
  rcases List.mem_append.1 h with h | h
  · obtain ⟨entry, hmem, rfl⟩ := List.mem_map.1 h
    have hentry := List.sizeOf_lt_of_mem hmem
    obtain ⟨key, v⟩ := entry
    simp only [Prod.mk.sizeOf_spec] at hentry ⊢
    omega
  · obtain ⟨entry, hmem, rfl⟩ := List.mem_map.1 h
    have hentry := List.sizeOf_lt_of_mem hmem
    obtain ⟨key, v⟩ := entry
    simp only [Prod.mk.sizeOf_spec] at hentry ⊢
    omega

private theorem Fragment.sizeOf_lt {f : Fragment} {v : Value} (h : v ∈ f.inside) :
    sizeOf v < sizeOf f := by
  cases f with
  | raw | parameter =>
    rw [List.mem_singleton.1 h]
    simp
  | identifier => cases h
  | parameterList _ _ | columnList _ _ | lines _ _ | clause _ _ =>
    rcases List.mem_cons.1 h with rfl | h
    · simp only [parameterList.sizeOf_spec, columnList.sizeOf_spec, lines.sizeOf_spec,
        clause.sizeOf_spec]
      omega
    · have hlt := List.sizeOf_lt_of_mem h
      simp
      omega
  | template label form strings values =>
    rcases List.mem_append.1 h with h | h
    · have hlt := List.sizeOf_lt_of_mem h
      simp
      omega
    · have hlt := List.sizeOf_lt_of_mem h
      simp
      omega
  | leaf label form text bindings assigned =>
    rcases List.mem_cons.1 h with rfl | h
    · simp
      omega
    · rcases List.mem_append.1 h with h | h
      · have hlt := List.sizeOf_lt_of_mem h
        simp
        omega
      · have hlt := sizeOf_lt_fields h
        simp
        omega
  | deferred label target assigned =>
    rcases List.mem_cons.1 h with rfl | h
    · simp
      omega
    · have hlt := sizeOf_lt_fields h
      simp
      omega
  | probe | endless | unrenderable =>
    have hlt := sizeOf_lt_fields h
    simp
    omega

/-- What holds of a value where it holds of the values it is made of holds of all values. -/
theorem Value.inside_induction {motive : Value → Prop}
    (step : ∀ v : Value, (∀ w ∈ v.inside, motive w) → motive v) (v : Value) : motive v := by
  apply step
  intro w hw
  have hlt : sizeOf w < sizeOf v := by
    cases v with
    | list label items =>
      have hlt := List.sizeOf_lt_of_mem (show w ∈ items from hw)
      simp
      omega
    | tuple items =>
      have hlt := List.sizeOf_lt_of_mem (show w ∈ items from hw)
      simp
      omega
    | dict label entries =>
      have hlt := sizeOf_lt_entries hw
      simp
      omega
    | fragment f =>
      have hlt := Fragment.sizeOf_lt hw
      simp
      omega
    | _ => cases hw
  exact inside_induction step w
termination_by sizeOf v

/-! ## Changes of what stands in a value -/

section

variable {change : Change}

theorem Value.applyEach_eq_map (vs : List Value) :
    Value.applyEach change vs = vs.map (·.apply change) := by
  induction vs with
  | nil => rfl
  | cons v rest ih => rw [Value.applyEach, ih, List.map_cons]

theorem Value.applyEntries_eq_map (entries : List (Value × Value)) :
    Value.applyEntries change entries =
      entries.map fun entry => (entry.1.apply change, entry.2.apply change) := by
  induction entries with
  | nil => rfl
  | cons entry rest ih => rw [Value.applyEntries, ih, List.map_cons]

theorem Value.applyFields_eq_map (fields : List (String × Value)) :
    Value.applyFields change fields = fields.map fun field => (field.1, field.2.apply change) := by
  induction fields with
  | nil => rfl
  | cons field rest ih => rw [Value.applyFields, ih, List.map_cons]

theorem Fragment.inside_apply (f : Fragment) :
    (f.apply change).inside = f.inside.map (·.apply change) := by
  cases f <;> simp [Fragment.apply, inside, Value.applyEach_eq_map, Value.applyFields_eq_map]

theorem map_eq_self_iff {α : Type} {f : α → α} {as : List α} :
    as.map f = as ↔ ∀ a ∈ as, f a = a := by
  induction as with
  | nil => simp
  | cons a rest ih => simp [ih]

private theorem applyFields_eq_self_iff {fields : List (String × Value)} :
    Value.applyFields change fields = fields ↔
      ∀ v ∈ fields.map (·.2), v.apply change = v := by
  rw [Value.applyFields_eq_map, map_eq_self_iff, List.forall_mem_map]
  simp

theorem Fragment.apply_eq_self_iff (f : Fragment) :
    f.apply change = f ↔ ∀ v ∈ f.inside, v.apply change = v := by
  cases f <;> simp only [Fragment.apply, inside, Value.applyEach_eq_map, applyFields_eq_self_iff,
    map_eq_self_iff, List.forall_mem_cons, List.forall_mem_append, List.not_mem_nil, raw.injEq,
    parameter.injEq, parameterList.injEq, columnList.injEq, lines.injEq, clause.injEq,
    template.injEq, leaf.injEq, probe.injEq, deferred.injEq, endless.injEq, unrenderable.injEq,
    true_and, and_comm] <;> simp

theorem Value.eq_list_of_apply {v : Value} {label : Label} {items : List Value}
    (h : v.apply change = .list label items) : ∃ old, v = .list label old := by
  cases v with
  | list l old =>
    cases change <;> cases h <;> exact ⟨old, rfl⟩
  | bytes form data => cases change <;> cases form <;> cases h
  | _ => cases change <;> cases h

theorem Value.eq_bytes_of_apply {v : Value} {label : Label} {data : List UInt8}
    (h : v.apply change = .bytes (.changeable label) data) :
    ∃ old, v = .bytes (.changeable label) old := by
  cases v with
  | bytes form old =>
    cases form with
    | changeable l => cases change <;> cases h <;> exact ⟨_, rfl⟩
    | _ => cases change <;> cases h
  | _ => cases change <;> cases h

end

section

variable {label : Label} {items : List Value} {v : Value}

private theorem apply_members_eq_self_iff (hv : ∀ old, v ≠ .list label old) :
    v.apply (.members label items) = v ↔ ∀ w ∈ v.inside, w.apply (.members label items) = w := by
  cases v with
  | list l old =>
    have hne : l ≠ label := by
      rintro rfl
      exact hv old rfl
    simp [Value.apply, Change.here, hne, Value.inside, Value.applyEach_eq_map, map_eq_self_iff]
  | tuple old => simp [Value.apply, Value.inside, Value.applyEach_eq_map, map_eq_self_iff]
  | dict l entries =>
    simp only [Value.apply, Change.here, Value.inside, Value.applyEntries_eq_map,
      Value.dict.injEq, true_and, map_eq_self_iff, Prod.ext_iff, List.forall_mem_append,
      List.forall_mem_map, forall_and]
  | fragment f =>
    simp only [Value.apply, Change.here, Value.inside, Value.fragment.injEq,
      Fragment.apply_eq_self_iff]
  | bytes form data => cases form <;> simp [Value.apply, Change.here, Value.inside]
  | _ => simp [Value.apply, Change.here, Value.inside]

end

/-! ## Values apart -/

/-- Whatever becomes of some lists, the value stays as it is. -/
def Value.Apart (lists : Set Label) (v : Value) : Prop :=
  ∀ label ∈ lists, ∀ items, v.apply (.members label items) = v

def Change.Apart (lists : Set Label) : Change → Prop
  | members label items => label ∉ lists ∧ ∀ v ∈ items, v.Apart lists
  | bytes _ _ => True
  | _ => False

variable {lists : Set Label}

private theorem inside_apply {change : Change} (hchange : change.Apart lists) (v : Value) :
    (v.apply change).inside = v.inside.map (·.apply change) ∨
      ∃ label items, change = .members label items ∧ (v.apply change).inside = items := by
  cases change with
  | entries | field => cases hchange
  | members label items =>
    by_cases hv : ∃ old, v = .list label old
    · obtain ⟨old, rfl⟩ := hv
      exact .inr ⟨label, items, rfl, by simp [Value.apply, Change.here, Value.inside]⟩
    · left
      cases v with
      | list l old =>
        have hne : l ≠ label := by
          rintro rfl
          exact hv ⟨old, rfl⟩
        simp [Value.apply, Change.here, hne, Value.inside, Value.applyEach_eq_map]
      | tuple old => simp [Value.apply, Value.inside, Value.applyEach_eq_map]
      | dict l entries =>
        simp [Value.apply, Change.here, Value.inside, Value.applyEntries_eq_map, Function.comp_def]
      | fragment f => exact f.inside_apply
      | bytes form data => cases form <;> rfl
      | _ => rfl
  | bytes label data =>
    left
    cases v with
    | list l old => simp [Value.apply, Change.here, Value.inside, Value.applyEach_eq_map]
    | tuple old => simp [Value.apply, Value.inside, Value.applyEach_eq_map]
    | dict l entries =>
      simp [Value.apply, Change.here, Value.inside, Value.applyEntries_eq_map, Function.comp_def]
    | fragment f => exact f.inside_apply
    | bytes form data => cases form <;> rfl
    | _ => rfl

theorem Value.apart_iff {v : Value} :
    v.Apart lists ↔
      (∀ label items, v = .list label items → label ∉ lists) ∧ ∀ w ∈ v.inside, w.Apart lists := by
  constructor
  · intro h
    have hlabel : ∀ label items, v = .list label items → label ∉ lists := by
      rintro label items rfl hlabel
      have hsame := h label hlabel (null :: items)
      simp [apply, Change.here] at hsame
    refine ⟨hlabel, fun w hw label hmem items => ?_⟩
    have hne : ∀ old, v ≠ .list label old := fun old hold => hlabel label old hold hmem
    exact (apply_members_eq_self_iff hne).1 (h label hmem items) w hw
  · rintro ⟨hlabel, hinside⟩ label hmem items
    have hne : ∀ old, v ≠ .list label old := fun old hold => hlabel label old hold hmem
    exact (apply_members_eq_self_iff hne).2 fun w hw => hinside w hw label hmem items

@[simp]
theorem Value.apart_null : null.Apart lists := fun _ _ _ => rfl

@[simp]
theorem Value.apart_bool (b : Bool) : (bool b).Apart lists := fun _ _ _ => rfl

@[simp]
theorem Value.apart_int (n : Int) : (int n).Apart lists := fun _ _ _ => rfl

@[simp]
theorem Value.apart_float (label : Label) (x : Number.Double) : (float label x).Apart lists :=
  fun _ _ _ => rfl

@[simp]
theorem Value.apart_decimal (label : Label) (x : Number.Decimal) : (decimal label x).Apart lists :=
  fun _ _ _ => rfl

@[simp]
theorem Value.apart_text (s : String) : (text s).Apart lists := fun _ _ _ => rfl

@[simp]
theorem Value.apart_bytes (form : BytesForm) (data : List UInt8) :
    (bytes form data).Apart lists := fun _ _ _ => by cases form <;> rfl

theorem Value.apart_list_iff {label : Label} {items : List Value} :
    (list label items).Apart lists ↔ label ∉ lists ∧ ∀ v ∈ items, v.Apart lists := by
  rw [apart_iff]
  simp [inside]

theorem Value.apart_tuple_iff {items : List Value} :
    (tuple items).Apart lists ↔ ∀ v ∈ items, v.Apart lists := by
  rw [apart_iff]
  simp [inside]

theorem Value.apart_dict_iff {label : Label} {entries : List (Value × Value)} :
    (dict label entries).Apart lists ↔
      ∀ entry ∈ entries, entry.1.Apart lists ∧ entry.2.Apart lists := by
  rw [apart_iff, inside, List.forall_mem_append, List.forall_mem_map, List.forall_mem_map]
  simp [forall_and]

theorem Value.apart_fragment_iff {f : Fragment} :
    (fragment f).Apart lists ↔ ∀ v ∈ f.inside, v.Apart lists := by
  rw [apart_iff]
  simp [inside]

theorem Value.Apart.apply {change : Change} (hchange : change.Apart lists) {v : Value}
    (h : v.Apart lists) : (v.apply change).Apart lists := by
  induction v using Value.inside_induction with
  | step v ih =>
    obtain ⟨hlabel, hinside⟩ := apart_iff.1 h
    have hmapped : ∀ w ∈ v.inside.map (·.apply change), w.Apart lists := by
      rw [List.forall_mem_map]
      exact fun w hw => ih w hw (hinside w hw)
    refine apart_iff.2 ⟨?_, ?_⟩
    · intro label items hlist
      obtain ⟨old, hold⟩ := Value.eq_list_of_apply hlist
      exact hlabel label old hold
    · rcases inside_apply hchange v with hsame | ⟨label, items, rfl, hitems⟩
      · rw [hsame]
        exact hmapped
      · rw [hitems]
        exact hchange.2

/-! ## Sums -/

section

variable {first second sum : Value}

private theorem apart_decimals {a b : Number.Decimal} (h : Summand.decimals a b = .ok sum) :
    sum.Apart lists := by
  unfold Summand.decimals at h
  split at h
  · cases h
    simp
  · cases h

private theorem apart_summand {a b : Summand} (h : a.plus b = .ok sum) : sum.Apart lists := by
  unfold Summand.plus at h
  split at h
  · cases h
    simp
  · obtain ⟨_, _, rfl⟩ := Outcome.map_eq_ok.1 h
    simp
  · obtain ⟨_, _, rfl⟩ := Outcome.map_eq_ok.1 h
    simp
  · cases h
    simp
  · exact apart_decimals h
  · exact apart_decimals h
  · exact apart_decimals h
  · cases h
  · cases h

private theorem apart_each {v : Value} {more : List Value} (h : v.Apart lists)
    (hmore : v.each? = some more) : ∀ w ∈ more, w.Apart lists := by
  cases v with
  | text s =>
    cases hmore
    simp [Value.characters]
  | bytes form data =>
    cases hmore
    simp
  | list label items =>
    cases hmore
    exact (Value.apart_list_iff.1 h).2
  | tuple items =>
    cases hmore
    exact Value.apart_tuple_iff.1 h
  | dict label entries =>
    cases hmore
    rw [List.forall_mem_map]
    exact fun entry hentry => (Value.apart_dict_iff.1 h entry hentry).1
  | _ => cases hmore

theorem Value.Apart.plus (hfirst : first.Apart lists) (hsecond : second.Apart lists)
    (h : first.plus second = .ok sum) : sum.Apart lists := by
  unfold Value.plus at h
  split at h
  · cases h
    simp
  · cases h
    rw [apart_tuple_iff] at hfirst hsecond ⊢
    exact List.forall_mem_append.2 ⟨hfirst, hsecond⟩
  · cases h
    simp
  · unfold plusBytes at h
    split at h
    · cases h
    · cases h
      simp
  · split at h
    · next more hmore =>
      cases h
      rw [apart_list_iff] at hfirst ⊢
      exact ⟨hfirst.1, List.forall_mem_append.2 ⟨hfirst.2, apart_each hsecond hmore⟩⟩
    · cases h
  · split at h
    · exact apart_summand h
    · cases h

theorem Value.Apart.growth {change : Change} (hfirst : first.Apart lists)
    (hsecond : second.Apart lists) (h : first.growth? second = some change) :
    change.Apart lists := by
  unfold growth? at h
  split at h
  · next label items hsum =>
    cases h
    exact apart_list_iff.1 (hfirst.plus hsecond hsum)
  · cases h
    trivial
  · cases h

end

end SqlFragments
