import SqlFragments.Proofs.Render.Chain

/-!
# The limit in a tree

A tree overruns just where one of the chains that are evaluated in it is longer than the limit, on
its own: among the values, lines and clauses of the tree, or where a fragment is written out inside
a value.
-/

namespace SqlFragments

open Outcome

variable {α β : Type} {env : Environment} {context : Context}

/-! ## Walks that account for what overruns -/

/-- A chain that begins here is longer than the limit. -/
def Visit.Overlong (visit : Visit) : Prop :=
  visit.depth = 0 ∧ maxResolutionDepth < visit.fragment.hops

/-- A visit that makes a walk overrun: at the start of a chain, or for what it writes out. -/
def Visit.Overruns (env : Environment) (visit : Visit) : Prop :=
  visit.Overlong ∨
    ∃ f ∈ visit.fragment.inlays env visit.context, (resolve env .inlined 0 f).Overruns

namespace Walk

/-- A walk comes to an end, and it overruns for a cause before it, or for a visit. -/
def Accounts (cause : Prop) (env : Environment) (w : Walk α) : Prop :=
  ∃ outcome, w.outcome? = some outcome ∧
    (outcome.Overruns ↔ cause ∨ ∃ v ∈ w.visits, v.Overruns env)

theorem Accounts.ofOutcome {outcome : Outcome α} {cause : Prop} (h : outcome.Overruns ↔ cause) :
    (ofOutcome outcome).Accounts cause env :=
  ⟨outcome, rfl, by simpa [Walk.ofOutcome] using h⟩

theorem Accounts.ofOutcome_not {outcome : Outcome α} (h : ¬ outcome.Overruns) :
    (Walk.ofOutcome outcome).Accounts False env :=
  .ofOutcome (iff_of_false h not_false)

theorem Accounts.bind {first : Walk α} {next : α → Walk β} {cause : Prop}
    (hfirst : first.Accounts cause env)
    (hnext : ∀ a, (next a).Accounts False env) : (first >>= next).Accounts cause env := by
  obtain ⟨outcome, houtcome, hiff⟩ := hfirst
  cases hanswer : outcome.answer with
  | error failure =>
    refine ⟨⟨outcome.trace, .error failure⟩, ?_, ?_⟩
    · show (Walk.bind first next).outcome? = _
      simp only [Walk.bind, houtcome, hanswer]
    · rw [visits_bind_error houtcome hanswer, ← hiff, Overruns, Overruns, hanswer]
      exact Iff.intro (fun h => by rw [Except.error.inj h]) (fun h => by rw [Except.error.inj h])
  | ok a =>
    obtain ⟨later, hlater, hlateriff⟩ := hnext a
    have hno : ¬ (cause ∨ ∃ v ∈ first.visits, v.Overruns env) := by
      rw [← hiff, Overruns, hanswer]
      exact fun h => by cases h
    refine ⟨⟨outcome.trace ++ later.trace, later.answer⟩, ?_, ?_⟩
    · show (Walk.bind first next).outcome? = _
      simp only [Walk.bind, houtcome, hanswer, hlater, Option.map_some]
    · rw [visits_bind_ok houtcome hanswer]
      refine (hlateriff.trans (or_iff_right not_false)).trans ?_
      constructor
      · rintro ⟨v, hv, hoverruns⟩
        exact .inr ⟨v, List.mem_append_right _ hv, hoverruns⟩
      · rintro (hcause | ⟨v, hv, hoverruns⟩)
        · exact absurd (.inl hcause) hno
        · rcases List.mem_append.1 hv with hv | hv
          · exact absurd (.inr ⟨v, hv, hoverruns⟩) hno
          · exact ⟨v, hv, hoverruns⟩

theorem Accounts.ofOutcome_bind {outcome : Outcome α} {next : α → Walk β}
    (h : ¬ outcome.Overruns) (hnext : ∀ a, (next a).Accounts False env) :
    (Walk.ofOutcome outcome >>= next).Accounts False env :=
  (ofOutcome_not h).bind hnext

end Walk

/-! ## One render -/

section

variable {evaluate' : Value → Walk Rendered}

private theorem accounts_valuesBy {values : List Value}
    (h : ∀ value ∈ values.map Value.promoted, (evaluate' value).Accounts False env) :
    (valuesBy evaluate' values).Accounts False env := by
  induction values with
  | nil => exact .ofOutcome_not (not_overruns_pure _)
  | cons value rest ih =>
    rw [List.map_cons, List.forall_mem_cons] at h
    apply h.1.bind
    intro _
    apply (ih h.2).bind
    intro _
    exact .ofOutcome_not (not_overruns_pure _)

private theorem accounts_linesBy {members : List Value}
    (h : ∀ member ∈ members, (evaluate' member).Accounts False env) (separator sql : Value)
    (bindings : List Value) :
    (linesBy Walk.ofOutcome evaluate' separator sql bindings members).Accounts False env := by
  induction members generalizing sql bindings with
  | nil => exact .ofOutcome_not (not_overruns_pure _)
  | cons member rest ih =>
    rw [List.forall_mem_cons] at h
    apply h.1.bind
    intro rendered
    apply Walk.Accounts.ofOutcome_bind (not_overruns_ofExcept rendered.tame_toResult)
    intro result
    apply Walk.Accounts.ofOutcome_bind (not_overruns_lengthen _ _ _ _)
    intro extended
    exact ih h.2 _ _

private theorem inlays_none {f : Fragment} (h : f.inlays env context = []) :
    (∃ g ∈ f.inlays env context, (resolve env .inlined 0 g).Overruns) ↔ False := by
  simp [h]

theorem accounts_renderBy (h : context.Honest env) {f : Fragment}
    (hparts : ∀ value ∈ f.parts, (evaluate' value).Accounts False env) :
    (f.renderBy Walk.ofOutcome evaluate' env context).Accounts
      (∃ g ∈ f.inlays env context, (resolve env .inlined 0 g).Overruns) env := by
  cases f with
  | raw value =>
    apply Walk.Accounts.ofOutcome
    rw [overruns_bind_left fun _ => not_overruns_pure _]
    exact overruns_verbatimText h value
  | identifier name =>
    rw [inlays_none rfl]
    apply Walk.Accounts.ofOutcome_not
    exact not_overruns_bind (not_overruns_writeName h _) fun _ => not_overruns_pure _
  | parameter value =>
    apply Walk.Accounts.ofOutcome
    rw [overruns_bind_left fun _ => not_overruns_pure _]
    exact overruns_bindValue h value
  | parameterList values separator =>
    apply Walk.Accounts.ofOutcome
    rw [overruns_bind_left fun _ => not_overruns_pure _]
    exact overruns_renderList h separator values
  | columnList columns separator =>
    rw [inlays_none rfl]
    apply Walk.Accounts.ofOutcome_not
    apply not_overruns_bind (not_overruns_ofExcept (tame_canJoin separator))
    intro _
    apply not_overruns_bind (not_overruns_writeNames h columns)
    intro pieces
    exact not_overruns_bind (not_overruns_ofExcept (tame_joinWith separator pieces))
      fun _ => not_overruns_pure _
  | lines members separator =>
    rw [inlays_none rfl]
    apply (accounts_linesBy hparts separator (.text "") []).bind
    intro _
    exact .ofOutcome_not (not_overruns_pure _)
  | clause strings value =>
    rw [inlays_none rfl]
    apply (hparts value List.mem_cons_self).bind
    intro rendered
    apply Walk.Accounts.ofOutcome_bind (not_overruns_ofExcept rendered.tame_toResult)
    intro inner
    apply Walk.Accounts.ofOutcome_bind (not_overruns_ofExcept (tame_surround context strings inner))
    intro _
    exact .ofOutcome_not (not_overruns_pure _)
  | template label form strings values =>
    rw [inlays_none rfl]
    apply (accounts_valuesBy hparts).bind
    intro rendered
    apply Walk.Accounts.ofOutcome_bind
    · apply not_overruns_ofExcept (tame_compose _)
      intro result hresult
      obtain ⟨one, _, rfl⟩ := List.mem_map.1 hresult
      exact one.tame_toResult
    · intro _
      exact .ofOutcome_not (not_overruns_pure _)
  | leaf label form text bindings assigned =>
    rw [inlays_none rfl]
    apply Walk.Accounts.ofOutcome_not
    apply not_overruns_bind (not_overruns_ofExcept (tame_canRender form assigned))
    intro _
    exact not_overruns_bind (fun h => by cases h) fun _ => not_overruns_pure _
  | probe | deferred | endless | unrenderable =>
    rw [inlays_none rfl]
    exact .ofOutcome_not (not_overruns_pure _)

end

/-! ## A whole walk -/

theorem Walk.Accounts.congr {w : Walk α} {cause cause' : Prop} (h : w.Accounts cause env)
    (hcause : cause ↔ cause') : w.Accounts cause' env := by
  rwa [← hcause]

private theorem Walk.Accounts.visited {w : Walk α} {cause cause' : Prop} {event : Event}
    {visit : Visit} (h : w.Accounts cause env) (hcause : cause ↔ cause' ∨ visit.Overruns env) :
    (Walk.ofOutcome (Outcome.emit event) >>= fun _ => Walk.visit visit >>= fun _ => w).Accounts
      cause' env := by
  obtain ⟨outcome, houtcome, hiff⟩ := h
  refine ⟨Outcome.emit event >>= fun _ => outcome, ?_, ?_⟩
  · apply Walk.outcome?_bind rfl
    intro _ _
    rw [Walk.outcome?_visit_bind, houtcome]
  · have hvisits : (Walk.ofOutcome (Outcome.emit event) >>= fun _ => Walk.visit visit >>= fun _ =>
        w).visits = visit :: w.visits := rfl
    have hoverruns : (Outcome.emit event >>= fun _ => outcome).Overruns ↔ outcome.Overruns := by
      unfold Outcome.Overruns
      rw [answer_bind]
      rfl
    rw [hvisits, hoverruns, hiff, hcause, or_assoc]
    simp only [List.mem_cons, exists_eq_or_imp]

theorem mem_visits_walk {options : Options} (hcontext : options.normalize = .ok context)
    {f : Fragment} (hallow : context.allow f = .ok ()) (levels depth : Nat) :
    ⟨f, context, depth⟩ ∈ (walk env (levels + 1) options depth (.fragment f)).visits := by
  rw [walk_fragment hcontext, enter_of_ok hallow]
  exact List.mem_cons_self

private theorem not_overruns_evaluate (h : context.Honest env) {target : Value}
    (htarget : ∀ f, target ≠ .fragment f) : ¬ (evaluate env context target).Overruns := by
  cases target with
  | fragment f => exact absurd rfl (htarget f)
  | null => exact not_overruns_pure _
  | text s =>
    rw [evaluate]
    split
    · exact not_overruns_pure _
    · split
      · refine not_overruns_bind ?_ fun _ => not_overruns_pure _
        rw [Context.bind]
        split
        · exact not_overruns_pure _
        · exact not_overruns_bind (not_overruns_writeText h s _) fun _ => not_overruns_pure _
      · exact fun h => by cases h
  | _ =>
    rw [evaluate]
    · unfold Failure.showing
      split
      · exact fun h => by cases h
      · next obstacle _ => cases obstacle <;> exact fun h => by cases h
    all_goals simp

private theorem overlong_next {depth : Nat} {f g : Fragment} (hallow : context.allow f = .ok ())
    (hnext : f.next? = some g) (hdepth : depth < maxResolutionDepth) :
    context.allow g = .ok () ∧ (maxResolutionDepth : ℕ∞) < (depth + 1 : Nat) + g.hops ↔
      (maxResolutionDepth : ℕ∞) < depth + f.hops := by
  obtain ⟨hescape, hescapeId, hf⟩ := Context.allow_eq_ok.1 hallow
  have hsum : (depth : ℕ∞) + f.hops = (depth + 1 : Nat) + g.hops := by
    rw [Fragment.hops_of_next hf hnext, Nat.cast_succ, add_assoc, add_comm 1]
  rw [hsum]
  refine and_iff_right_of_imp fun hlong => Context.allow_eq_ok.2 ⟨hescape, hescapeId, ?_⟩
  by_contra hg
  rw [Fragment.hops_of_not_renderable (Bool.not_eq_true _ ▸ hg), add_zero, Nat.cast_lt] at hlong
  omega

private theorem overruns_of_next {depth : Nat} {f g : Fragment} (hallow : context.allow f = .ok ())
    (hnext : f.next? = some g) :
    (maxResolutionDepth : ℕ∞) < depth + f.hops ↔
      (context.allow f = .ok () ∧ (maxResolutionDepth : ℕ∞) < depth + f.hops) ∨
        Visit.Overruns env ⟨f, context, depth⟩ := by
  constructor
  · exact fun hlong => .inl ⟨hallow, hlong⟩
  · rintro (⟨_, hlong⟩ | ⟨hstart, hlong⟩ | ⟨leaf, hleaf, _⟩)
    · exact hlong
    · rwa [show depth = 0 from hstart, Nat.cast_zero, zero_add]
    · unfold Fragment.next? at hnext
      split at hnext
      · cases hleaf
      · cases hleaf
      · cases hnext

private theorem overruns_of_next_none {depth : Nat} {f : Fragment}
    (hdepth : depth ≤ maxResolutionDepth) (hnext : f.next? = none) :
    (∃ g ∈ f.inlays env context, (resolve env .inlined 0 g).Overruns) ↔
      (context.allow f = .ok () ∧ (maxResolutionDepth : ℕ∞) < depth + f.hops) ∨
        Visit.Overruns env ⟨f, context, depth⟩ := by
  have hhops := Fragment.hops_of_next_none hnext
  constructor
  · exact fun hinlays => .inr (.inr hinlays)
  · rintro (⟨_, hlong⟩ | ⟨_, hlong⟩ | hinlays)
    · rw [hhops, add_zero, Nat.cast_lt] at hlong
      omega
    · rw [show (Visit.fragment ⟨f, context, depth⟩).hops = 0 from hhops] at hlong
      exact absurd hlong (by simp)
    · exact hinlays

private theorem Walk.Accounts.from_start {options : Options}
    (hcontext : options.normalize = .ok context) {levels : Nat} {f : Fragment}
    (h : (walk env (levels + 1) options 0 (.fragment f)).Accounts
      (context.allow f = .ok () ∧ (maxResolutionDepth : ℕ∞) < (0 : Nat) + f.hops) env) :
    (walk env (levels + 1) options 0 (.fragment f)).Accounts False env := by
  obtain ⟨outcome, houtcome, hiff⟩ := h
  refine ⟨outcome, houtcome, hiff.trans ?_⟩
  rw [false_or]
  apply or_iff_right_of_imp
  rintro ⟨hallow, hlong⟩
  rw [Nat.cast_zero, zero_add] at hlong
  exact ⟨_, mem_visits_walk hcontext hallow levels 0, .inl ⟨rfl, hlong⟩⟩

private theorem accounts_walk_fragment (h : context.Honest env) {options : Options}
    (hcontext : options.normalize = .ok context) {levels depth : Nat} {f : Fragment}
    (hfits : f.Fits levels depth) (hdepth : depth ≤ maxResolutionDepth) :
    (walk env levels options depth (.fragment f)).Accounts
      (context.allow f = .ok () ∧ (maxResolutionDepth : ℕ∞) < depth + f.hops) env := by
  induction levels generalizing options depth f with
  | zero =>
    have hlevels := f.one_le_levels
    rcases hfits with h | ⟨_, _, _, h, _⟩ <;> omega
  | succ levels ih =>
    have hagain := Options.normalize_toSettings hcontext
    rcases context.allow_or f with ⟨cause, hallow⟩ | hallow
    · rw [walk_fragment hcontext, enter_of_error hallow, Walk.ofOutcome_fail_bind]
      apply Walk.Accounts.ofOutcome
      refine iff_of_false ?_ fun hok => by cases hallow.symm.trans hok.1
      exact fun hoverruns => (Context.category_of_allow hallow).2 (Except.error.inj hoverruns)
    · cases hnext : f.next? with
      | none =>
        rw [walk_of_next_none hcontext hnext, enter_of_ok hallow]
        refine Walk.Accounts.visited (accounts_renderBy h ?_) (overruns_of_next_none hdepth hnext)
        intro value hvalue
        have hlevels := hfits.part value hvalue
        obtain ⟨levels, rfl⟩ : ∃ n, levels = n + 1 :=
          ⟨levels - 1, by have := value.one_le_levels; omega⟩
        rcases value.fragment_or_ne with ⟨g, rfl⟩ | hne
        · exact (ih hagain (.inl hlevels) (Nat.zero_le _)).from_start hagain
        · rw [walk_of_ne_fragment hagain hne]
          exact .ofOutcome_not (not_overruns_evaluate h hne)
      | some g =>
        rw [walk_of_next hcontext hnext, enter_of_ok hallow]
        refine Walk.Accounts.visited ?_ (overruns_of_next hallow hnext)
        by_cases hlimit : depth ≥ maxResolutionDepth
        · rw [if_pos hlimit]
          apply Walk.Accounts.ofOutcome
          refine iff_of_true rfl ?_
          have hone : (depth : ℕ∞) + 1 ≤ depth + f.hops := by
            rw [Fragment.hops_of_next (Context.allow_eq_ok.1 hallow).2.2 hnext]
            exact add_le_add_right le_add_self _
          refine lt_of_lt_of_le ?_ hone
          rw [← Nat.cast_succ, Nat.cast_lt]
          omega
        · rw [if_neg hlimit]
          have hrendered : (f.renderBy id (evaluate env context) env context).answer =
              .ok (.other (.fragment g)) := congrArg Outcome.answer (Fragment.renderBy_of_next hnext)
          exact (ih hcontext (hfits.next hrendered (by omega)) (by omega)).congr
            (overlong_next hallow hnext (by omega))

/-- The outcome of an evaluation is accounted for by what is visited. -/
theorem overruns_iff_visits {options : Options} {target : Value}
    (h : ∀ context, options.normalize = .ok context → context.Honest env) :
    (options.evaluate env target).Overruns ↔
      ∃ visit ∈ options.visits env target, visit.Overruns env := by
  have hwalk : (walk env target.levels options 0 target).Accounts False env := by
    obtain ⟨levels, hlevels⟩ : ∃ n, target.levels = n + 1 :=
      ⟨target.levels - 1, by have := target.one_le_levels; omega⟩
    rw [hlevels]
    cases hcontext : options.normalize with
    | error cause =>
      rw [walk_of_error hcontext]
      exact .ofOutcome_not fun hoverruns =>
        (Options.category_of_normalize hcontext).2 (Except.error.inj hoverruns)
    | ok context =>
      have hhonest := h context hcontext
      rcases target.fragment_or_ne with ⟨f, rfl⟩ | hne
      · exact (accounts_walk_fragment hhonest hcontext (.inl hlevels.le)
          (Nat.zero_le _)).from_start hcontext
      · rw [walk_of_ne_fragment hcontext hne]
        exact .ofOutcome_not (not_overruns_evaluate hhonest hne)
  obtain ⟨outcome, houtcome, hiff⟩ := hwalk
  rw [outcome?_walk options (Nat.le_refl _)] at houtcome
  cases houtcome
  rwa [false_or] at hiff

/-! ## Chains inside values -/

mutual

private theorem sizeOf_of_mem_inlays {f : Fragment} (value : Value) (h : f ∈ value.inlays env) :
    sizeOf f < sizeOf value := by
  match value with
  | .list _ items =>
    have hitems := sizeOf_of_mem_inlaysEach items h
    simp only [Value.list.sizeOf_spec]
    omega
  | .tuple items =>
    have hitems := sizeOf_of_mem_inlaysEach items h
    simp only [Value.tuple.sizeOf_spec]
    omega
  | .dict _ entries =>
    have hentries := sizeOf_of_mem_inlaysEntries entries h
    simp only [Value.dict.sizeOf_spec]
    omega
  | .fragment g =>
    rw [Value.inlays] at h
    split at h
    · rw [List.mem_singleton.1 h, Value.fragment.sizeOf_spec]
      omega
    · cases h
  | .null | .bool _ | .int _ | .float _ _ | .decimal _ _ | .text _ | .dateTime _ | .date _
  | .bytes _ _ | .object _ _ | .function _ => cases h
termination_by structural value

private theorem sizeOf_of_mem_inlaysEach {f : Fragment} (items : List Value)
    (h : f ∈ Value.inlaysEach env items) : sizeOf f < sizeOf items := by
  match items with
  | [] => cases h
  | value :: rest =>
    rw [Value.inlaysEach] at h
    simp only [List.cons.sizeOf_spec]
    rcases List.mem_append.1 h with h | h
    · have hvalue := sizeOf_of_mem_inlays value h
      omega
    · split at h
      · have hrest := sizeOf_of_mem_inlaysEach rest h
        omega
      · cases h
termination_by structural items

private theorem sizeOf_of_mem_inlaysEntries {f : Fragment} (entries : List (Value × Value))
    (h : f ∈ Value.inlaysEntries env entries) : sizeOf f < sizeOf entries := by
  match entries with
  | [] => cases h
  | (key, value) :: rest =>
    rw [Value.inlaysEntries] at h
    simp only [List.cons.sizeOf_spec, Prod.mk.sizeOf_spec]
    split at h
    · rcases List.mem_append.1 h with h | h
      · have hvalue := sizeOf_of_mem_inlays value h
        omega
      · split at h
        · have hrest := sizeOf_of_mem_inlaysEntries rest h
          omega
        · cases h
    · cases h
termination_by structural entries

end

private theorem sizeOf_of_mem_escaper {escaper : LiteralEscaper} {f : Fragment} {value : Value}
    (h : f ∈ escaper.inlays env value) : sizeOf f < sizeOf value := by
  cases escaper with
  | standard => exact sizeOf_of_mem_inlays value h
  | custom | broken => cases h

private theorem sizeOf_of_mem_inlaysList {f : Fragment} {values : List Value}
    (h : f ∈ context.inlaysEach env values) : sizeOf f < sizeOf values := by
  induction values with
  | nil => cases h
  | cons value rest ih =>
    rw [Context.inlaysEach] at h
    simp only [List.cons.sizeOf_spec]
    rcases List.mem_append.1 h with h | h
    · have hvalue := sizeOf_of_mem_escaper h
      omega
    · split at h
      · have hrest := ih h
        omega
      · cases h

private theorem sizeOf_inlay {f g : Fragment} (h : g ∈ f.inlays env context) :
    sizeOf g < sizeOf f := by
  unfold Fragment.inlays at h
  split at h
  · have hvalue := sizeOf_of_mem_inlays (.fragment _) h
    simp only [Fragment.raw.sizeOf_spec]
    omega
  · split at h
    · cases h
    · have hvalue := sizeOf_of_mem_escaper h
      simp only [Fragment.parameter.sizeOf_spec]
      omega
  · split at h
    · cases h
    · split at h
      · have hvalues := sizeOf_of_mem_inlaysList h
        simp only [Fragment.parameterList.sizeOf_spec]
        omega
      · cases h
  · cases h

private theorem sizeOf_promoted_le (value : Value) : sizeOf value.promoted ≤ sizeOf value + 2 := by
  unfold Value.promoted
  split
  · simp only [Value.fragment.sizeOf_spec, Fragment.parameter.sizeOf_spec]
    omega
  · omega

private theorem sizeOf_part {f : Fragment} {value : Value} (h : value ∈ f.parts) :
    sizeOf value ≤ sizeOf f := by
  cases f with
  | lines members separator =>
    have hmember : sizeOf value < sizeOf members := List.sizeOf_lt_of_mem h
    simp only [Fragment.lines.sizeOf_spec]
    omega
  | clause strings inner =>
    rw [List.mem_singleton.1 h]
    simp only [Fragment.clause.sizeOf_spec]
    omega
  | template label form strings values =>
    obtain ⟨inner, hinner, rfl⟩ := List.mem_map.1 h
    have hpromoted := sizeOf_promoted_le inner
    have hvalue := List.sizeOf_lt_of_mem hinner
    simp only [Fragment.template.sizeOf_spec]
    omega
  | _ => cases h

private theorem sizeOf_next {f g : Fragment} (h : f.next? = some g) : sizeOf g ≤ sizeOf f := by
  unfold Fragment.next? at h
  split at h
  · cases h
    simp only [Fragment.deferred.sizeOf_spec, Value.fragment.sizeOf_spec]
    omega
  · cases h
    exact Nat.le_refl _
  · cases h

private theorem sizeOf_visit (options : Options) (levels depth : Nat) (target : Value) :
    ∀ visit ∈ (walk env levels options depth target).visits,
      sizeOf visit.fragment < sizeOf target := by
  induction levels generalizing options depth target with
  | zero => exact fun _ hvisit => by cases hvisit
  | succ levels ih =>
    cases hcontext : options.normalize with
    | error cause =>
      rw [walk_of_error hcontext]
      exact fun _ hvisit => by cases hvisit
    | ok context =>
      rcases target.fragment_or_ne with ⟨f, rfl⟩ | hne
      · have hsize : sizeOf (Value.fragment f) = 1 + sizeOf f := Value.fragment.sizeOf_spec f
        have hfirst : sizeOf f < sizeOf (Value.fragment f) := by omega
        cases hnext : f.next? with
        | none =>
          rw [walk_of_next_none hcontext hnext]
          apply Walk.forall_visits_ofOutcome_bind
          intro _
          rw [Walk.visits_visit_bind, List.forall_mem_cons]
          refine ⟨hfirst, forall_visits_renderBy fun value hvalue visit hvisit => ?_⟩
          have hpart := sizeOf_part hvalue
          have hbelow := ih _ _ value visit hvisit
          omega
        | some g =>
          rw [walk_of_next hcontext hnext]
          apply Walk.forall_visits_ofOutcome_bind
          intro _
          rw [Walk.visits_visit_bind, List.forall_mem_cons]
          refine ⟨hfirst, ?_⟩
          split
          · exact fun _ hvisit => by cases hvisit
          · intro visit hvisit
            have hg := sizeOf_next hnext
            have hbelow := ih _ _ (.fragment g) visit hvisit
            rw [Value.fragment.sizeOf_spec] at hbelow
            omega
      · rw [walk_of_ne_fragment hcontext hne]
        exact fun _ hvisit => by cases hvisit

def Options.inlined : Options := constructed Context.inlined.toSettings

theorem Options.normalize_inlined : inlined.normalize = .ok .inlined := by
  have hmapping : (mapping 0 [(.text "with_parameters", .value (.bool false))]).normalize =
      .ok .inlined := rfl
  exact normalize_toSettings hmapping

/-- What is rendered for the evaluation of a thing: what is visited, and what is rendered for the
evaluation of a fragment that is written out on the way. -/
inductive Evaluated (env : Environment) : Options → Value → Visit → Prop
  | visited {options : Options} {target : Value} {visit : Visit}
    (hvisit : visit ∈ options.visits env target) : Evaluated env options target visit
  | written {options : Options} {target : Value} {visit writer : Visit} {f : Fragment}
    (hwriter : writer ∈ options.visits env target)
    (hf : f ∈ writer.fragment.inlays env writer.context)
    (inside : Evaluated env .inlined (.fragment f) visit) : Evaluated env options target visit

private theorem evaluate_inlined (f : Fragment) :
    Options.inlined.evaluate env (.fragment f) = resolve env .inlined 0 f := by
  rw [Options.evaluate, Options.normalize_inlined]
  exact pure_bind _ _

private theorem honest_inlined (h : context.Honest env) :
    ∀ context, Options.inlined.normalize = .ok context → context.Honest env := by
  intro context' hcontext
  rw [Options.normalize_inlined] at hcontext
  cases hcontext
  exact h.inlined

private theorem overruns_of_evaluated {options : Options} {target : Value} {visit : Visit}
    (h : ∀ context, options.normalize = .ok context → context.Honest env)
    (hevaluated : Evaluated env options target visit) (hlong : visit.Overlong) :
    (options.evaluate env target).Overruns := by
  induction hevaluated with
  | visited hvisit => exact (overruns_iff_visits h).2 ⟨_, hvisit, .inl hlong⟩
  | @written options target visit writer f hwriter hf _ ih =>
    have hcontext := normalize_of_mem_visits options _ 0 target writer hwriter
    have hinside := ih (honest_inlined (h _ hcontext)) hlong
    rw [evaluate_inlined] at hinside
    exact (overruns_iff_visits h).2 ⟨writer, hwriter, .inr ⟨f, hf, hinside⟩⟩

private theorem evaluated_of_overruns {options : Options} {target : Value}
    (h : ∀ context, options.normalize = .ok context → context.Honest env)
    (hoverruns : (options.evaluate env target).Overruns) :
    ∃ visit, Evaluated env options target visit ∧ visit.Overlong := by
  obtain ⟨visit, hvisit, hlong | ⟨f, hf, hinside⟩⟩ := (overruns_iff_visits h).1 hoverruns
  · exact ⟨visit, .visited hvisit, hlong⟩
  · have hcontext := normalize_of_mem_visits options _ 0 target visit hvisit
    rw [← evaluate_inlined] at hinside
    obtain ⟨inner, hinner, hlong⟩ :=
      evaluated_of_overruns (honest_inlined (h _ hcontext)) hinside
    exact ⟨inner, .written hvisit hf hinner, hlong⟩
termination_by sizeOf target
decreasing_by
  have hwriter := sizeOf_visit options _ 0 target visit hvisit
  have hinlay := sizeOf_inlay hf
  rw [Value.fragment.sizeOf_spec]
  omega

/-! ## The limit under options -/

private theorem render_error {options : Options} {target : Value}
    (h : ∀ context, ∃ cause, (evaluate env context target).answer = .error cause ∧
      cause.category = .invalidState) :
    ∃ cause, options.render env target = .error cause ∧ cause.category = .invalidState := by
  rw [Options.render]
  cases hcontext : options.normalize with
  | error cause => exact ⟨cause, rfl, (Options.category_of_normalize hcontext).1⟩
  | ok context => exact h context

private theorem answer_endless (label : Label) (assigned : List (String × Value)) :
    ∃ cause, (evaluate env context (.fragment (.endless label assigned))).answer = .error cause ∧
      cause.category = .invalidState := by
  rw [evaluate]
  rcases context.allow_or (.endless label assigned) with ⟨cause, hallow⟩ | hallow
  · exact ⟨cause, answer_resolve_of_error hallow, (Context.category_of_allow hallow).1⟩
  · apply answer_resolve_beyond (Nat.zero_le _)
    rw [Fragment.hops, if_pos (Context.allow_eq_ok.1 hallow).2.2]
    exact ENat.natCast_lt_top _

/-- Evaluation always comes to an end, on as many levels as the thing has. What the library makes
comes to the same behind any fragments that defer to one another, up to the limit, and fails behind
more of them; a fragment that renders to itself always fails. A tree goes beyond the limit just
where one chain does that is evaluated for it and that is longer than the limit by itself. -/
theorem Options.chain_limit (options : Options) (env : Environment) :
    (∀ (target : Value) (levels : Nat), target.levels ≤ levels →
      (walk env levels options 0 target).outcome? = some (options.evaluate env target)) ∧
    (∀ (f : Fragment) (labels : List Label), f.assignable? = none →
      (labels.length ≤ maxResolutionDepth →
        options.render env (Fragment.deferredBy labels (.fragment f)) =
          options.render env (.fragment f)) ∧
      (maxResolutionDepth < labels.length →
        ∃ cause, options.render env (Fragment.deferredBy labels (.fragment f)) = .error cause ∧
          cause.category = .invalidState)) ∧
    (∀ (label : Label) (assigned : List (String × Value)),
      ∃ cause, options.render env (.fragment (.endless label assigned)) = .error cause ∧
        cause.category = .invalidState) ∧
    ((∀ context, options.normalize = .ok context → context.Honest env) → ∀ target : Value,
      (options.render env target = .error (.resolutionTooDeep maxResolutionDepth) ↔
        ∃ visit, Evaluated env options target visit ∧ visit.depth = 0 ∧
          maxResolutionDepth < visit.fragment.hops)) := by
  refine ⟨fun target levels hlevels => outcome?_walk options hlevels, ?_, ?_, ?_⟩
  · intro f labels hf
    have hhops := Fragment.hops_of_assignable hf
    constructor
    · intro hwithin
      rw [render, render]
      cases options.normalize with
      | error cause => rfl
      | ok context => exact answer_evaluate_deferredBy hhops hwithin
    · intro hbeyond
      apply render_error
      intro context
      apply answer_evaluate_deferredBy_error
      rwa [hhops, add_zero, Nat.cast_lt]
  · intro label assigned
    exact render_error fun context => answer_endless label assigned
  · intro hhonest target
    rw [← answer_evaluate]
    constructor
    · exact evaluated_of_overruns hhonest
    · rintro ⟨visit, hevaluated, hlong⟩
      exact overruns_of_evaluated hhonest hevaluated hlong

/-- Sixty-four fragments defer to lines, and in the lines as many defer to a name, twice: nothing
goes beyond the limit, though behind one more fragment each of them does. -/
theorem Options.chain_limit_nested :
    let chain (count : Nat) (f : Fragment) : Value :=
      Fragment.deferredBy (List.replicate count 0) (.fragment f)
    let lines : Fragment := .lines [chain 64 (.identifier "a"), chain 64 (.identifier "b")] (.text " ")
    ((∀ context, Options.absent.normalize = .ok context → context.Honest {}) ∧
      (chain 64 lines).levels ≤ 130) ∧
    (walk {} 130 Options.absent 0 (chain 64 lines)).outcome? =
      some (Options.absent.evaluate {} (chain 64 lines)) ∧
    Options.absent.render {} (chain 64 lines) = Options.absent.render {} (.fragment lines) ∧
    (∃ cause, Options.absent.render {} (chain 65 lines) = .error cause ∧
      cause.category = .invalidState) ∧
    (Options.absent.render {} (chain 64 lines) = .error (.resolutionTooDeep maxResolutionDepth) ↔
      ∃ visit, Evaluated {} Options.absent (chain 64 lines) visit ∧ visit.depth = 0 ∧
        maxResolutionDepth < visit.fragment.hops) := by
  intro chain lines
  have hhonest : ∀ context, Options.absent.normalize = .ok context → context.Honest {} := by
    intro context hcontext
    cases hcontext
    refine ⟨?_, ?_, ?_⟩
    · exact fun _ h => by cases h
    · exact fun h => by cases h
    · exact fun h => by cases h
  have hlevels : (chain 64 lines).levels ≤ 130 := by decide +kernel
  have hwithin : (List.replicate 64 (0 : Label)).length ≤ maxResolutionDepth :=
    List.length_replicate.le
  have hbeyond : maxResolutionDepth < (List.replicate 65 (0 : Label)).length := by
    rw [List.length_replicate]
    decide
  obtain ⟨hends, hchains, _, hlimit⟩ := chain_limit Options.absent {}
  exact ⟨⟨hhonest, hlevels⟩, hends _ _ hlevels, (hchains lines _ rfl).1 hwithin,
    (hchains lines _ rfl).2 hbeyond, hlimit hhonest (chain 64 lines)⟩

end SqlFragments
