import SqlFragments.Proofs.Render.Options
import SqlFragments.Proofs.Render.Steps

/-!
# Evaluations inside evaluations

An evaluation normalizes its options and lets a fragment render under the context that they make.
The fragment has what stands in it evaluated in turn, with that context for options, and where it
renders to another fragment, the other one is evaluated under the options that the evaluation began
with. A walk goes through these evaluations down to a number of levels and keeps what it visits.
-/

namespace SqlFragments

open Outcome

variable {α β : Type} {env : Environment}

/-- A fragment about to be rendered: the context it is given, and how many fragments before it
rendered to one another until they came to it. -/
structure Visit where
  fragment : Fragment
  context : Context
  depth : Nat

/-- What was visited in order, and the outcome if there were enough levels for it. -/
structure Walk (α : Type) where
  visits : List Visit
  outcome? : Option (Outcome α)

namespace Walk

def ofOutcome (outcome : Outcome α) : Walk α := ⟨[], some outcome⟩

def visit (visited : Visit) : Walk Unit := ⟨[visited], some (Pure.pure ())⟩

def cut : Walk α := ⟨[], none⟩

def bind (first : Walk α) (next : α → Walk β) : Walk β :=
  match first.outcome? with
  | none => ⟨first.visits, none⟩
  | some outcome =>
    match outcome.answer with
    | .error cause => ⟨first.visits, some ⟨outcome.trace, .error cause⟩⟩
    | .ok a => ⟨first.visits ++ (next a).visits, (next a).outcome?.map fun later =>
        ⟨outcome.trace ++ later.trace, later.answer⟩⟩

instance : Monad Walk where
  pure a := ofOutcome (Pure.pure a)
  bind := bind

instance : LawfulMonad Walk := LawfulMonad.mk' Walk
  (by
    intro α w
    obtain ⟨visits, outcome?⟩ := w
    show bind _ _ = _
    cases outcome? with
    | none => rfl
    | some outcome =>
      obtain ⟨trace, answer⟩ := outcome
      cases answer <;> simp [bind, ofOutcome])
  (by
    intro α β a f
    show bind (ofOutcome (Pure.pure a)) f = f a
    simp [bind, ofOutcome])
  (by
    intro α β γ w f g
    show bind (bind w f) g = bind w fun a => bind (f a) g
    obtain ⟨visits, outcome?⟩ := w
    cases outcome? with
    | none => rfl
    | some outcome =>
      obtain ⟨trace, answer⟩ := outcome
      cases answer with
      | error cause => rfl
      | ok a =>
        simp only [bind]
        cases (f a).outcome? with
        | none => rfl
        | some later =>
          obtain ⟨trace', answer'⟩ := later
          cases answer' with
          | error cause => rfl
          | ok b => simp [Function.comp_def])

theorem ofOutcome_bind (outcome : Outcome α) (next : α → Outcome β) :
    ofOutcome (outcome >>= next) = ofOutcome outcome >>= fun a => ofOutcome (next a) := by
  show ofOutcome (Outcome.bind outcome next) = bind _ _
  obtain ⟨trace, answer⟩ := outcome
  cases answer <;> rfl

@[simp]
theorem ofOutcome_pure_bind (a : α) (next : α → Walk β) :
    (ofOutcome (Pure.pure a) >>= next) = next a :=
  pure_bind a next

@[simp]
theorem ofOutcome_fail_bind (cause : Failure) (next : α → Walk β) :
    (ofOutcome (.fail cause) >>= next) = ofOutcome (.fail cause) := rfl

theorem outcome?_visit_bind (visited : Visit) (next : Unit → Walk β) :
    (visit visited >>= next).outcome? = (next ()).outcome? := by
  show (bind _ _).outcome? = _
  simp [bind, visit]

theorem visits_visit_bind (visited : Visit) (next : Unit → Walk β) :
    (visit visited >>= next).visits = visited :: (next ()).visits := rfl

theorem outcome?_bind {first : Walk α} {next : α → Walk β} {outcome : Outcome α}
    {later : α → Outcome β} (hfirst : first.outcome? = some outcome)
    (hnext : ∀ a, outcome.answer = .ok a → (next a).outcome? = some (later a)) :
    (first >>= next).outcome? = some (outcome >>= later) := by
  show (bind first next).outcome? = some (Outcome.bind outcome later)
  cases hanswer : outcome.answer with
  | error cause => simp only [bind, Outcome.bind, hfirst, hanswer]
  | ok a => simp only [bind, Outcome.bind, hfirst, hanswer, hnext a hanswer, Option.map_some]

theorem visits_bind_ok {first : Walk α} {next : α → Walk β} {outcome : Outcome α} {a : α}
    (hfirst : first.outcome? = some outcome) (ha : outcome.answer = .ok a) :
    (first >>= next).visits = first.visits ++ (next a).visits := by
  show (bind first next).visits = _
  simp only [bind, hfirst, ha]

theorem visits_bind_error {first : Walk α} {next : α → Walk β} {outcome : Outcome α}
    {cause : Failure} (hfirst : first.outcome? = some outcome) (hc : outcome.answer = .error cause) :
    (first >>= next).visits = first.visits := by
  show (bind first next).visits = _
  simp only [bind, hfirst, hc]

theorem forall_visits_bind {P : Visit → Prop} {first : Walk α} {next : α → Walk β}
    (hfirst : ∀ v ∈ first.visits, P v) (hnext : ∀ a, ∀ v ∈ (next a).visits, P v) :
    ∀ v ∈ (first >>= next).visits, P v := by
  show ∀ v ∈ (bind first next).visits, P v
  unfold bind
  split
  · exact hfirst
  · split
    · exact hfirst
    · next a _ =>
      rw [List.forall_mem_append]
      exact ⟨hfirst, hnext a⟩

theorem forall_visits_ofOutcome_bind {P : Visit → Prop} {outcome : Outcome α} {next : α → Walk β}
    (hnext : ∀ a, ∀ v ∈ (next a).visits, P v) : ∀ v ∈ (ofOutcome outcome >>= next).visits, P v :=
  forall_visits_bind (fun _ hv => by cases hv) hnext

end Walk

/-! ## Renders that have others evaluated -/

def Value.promoted (value : Value) : Value :=
  if value.isPlain then .fragment (.parameter value) else value

def Fragment.parts : Fragment → List Value
  | .lines members _ => members
  | .clause _ value => [value]
  | .template _ _ _ values => values.map Value.promoted
  | _ => []

section

variable {m : Type → Type} [Monad m] (lift : ∀ {α : Type}, Outcome α → m α)
  (evaluate : Value → m Rendered)

def valuesBy : List Value → m (List Rendered)
  | [] => pure []
  | value :: rest => do
    let rendered ← evaluate value.promoted
    let others ← valuesBy rest
    pure (rendered :: others)

def linesBy (separator sql : Value) (bindings : List Value) : List Value → m Result
  | [] => pure { sql := sql, bindings := bindings }
  | member :: rest => do
    let rendered ← evaluate member
    let result ← lift rendered.expect
    let sql ← lift (lengthen separator rest.isEmpty sql result.sql)
    linesBy separator sql (bindings ++ result.bindings) rest

/-- Renders one fragment under a context. Whatever stands in it is evaluated by the given
evaluation, and a fragment that it renders to is its answer. -/
def Fragment.renderBy (env : Environment) (context : Context) : Fragment → m Rendered
  | .raw value => lift do
    let text ← verbatimText env value
    pure (.result { sql := .text text })
  | .identifier name => lift do
    let sql ← context.escapeId.write env (.text name)
    pure (.result { sql := sql })
  | .parameter value => lift do
    let result ← context.bind env value fun _ => json env value
    pure (.result result)
  | .parameterList values separator => lift do
    let result ← renderList env context separator values
    pure (.result result)
  | .columnList columns separator => lift do
    Outcome.ofExcept (canJoin separator)
    let pieces ← columns.mapM (context.escapeId.write env)
    let sql ← Outcome.ofExcept (joinWith separator pieces)
    pure (.result { sql := sql })
  | .lines members separator => do
    let result ← linesBy lift evaluate separator (.text "") [] members
    pure (.result result)
  | .clause strings value => do
    let rendered ← evaluate value
    let inner ← lift rendered.expect
    let result ← lift (Outcome.ofExcept (surround context strings inner))
    pure (.result result)
  | .template _ _ strings values => do
    let rendered ← valuesBy evaluate values
    let result ← lift
      (Outcome.ofExcept (compose strings (rendered.map Rendered.toResult) context))
    pure (.result result)
  | .leaf label form text bindings assigned => lift do
    Outcome.ofExcept (form.canRender assigned)
    Outcome.emit (.leafRendered label)
    pure (.result { sql := text, bindings := bindings })
  | .probe _ _ => pure (.result {
      sql := .text "probe"
      bindings := [.bool context.withParameters, context.timezone, .bool context.preparing,
        context.method] })
  | .deferred _ target _ => pure (.other target)
  | .endless label assigned => pure (.other (.fragment (.endless label assigned)))
  | .unrenderable _ _ _ => pure (.result {})

/-- Goes on with the fragment that another one rendered to, unless there were too many in a row. -/
def Rendered.followBy (next : Fragment → m Rendered) (depth : Nat) : Rendered → m Rendered
  | other (.fragment f) =>
    if depth ≥ maxResolutionDepth then lift (.fail (.resolutionTooDeep maxResolutionDepth))
    else next f
  | rendered => pure rendered

end

/-- Evaluates a thing that comes after `depth` fragments in a row, on at most so many levels. -/
def walk (env : Environment) (levels : Nat) (options : Options) (depth : Nat) (target : Value) :
    Walk Rendered :=
  match levels with
  | 0 => .cut
  | levels + 1 => do
    let context ← Walk.ofOutcome (Outcome.ofExcept options.normalize)
    match target with
    | .fragment f => do
      Walk.ofOutcome (context.enter f)
      Walk.visit ⟨f, context, depth⟩
      let rendered ← f.renderBy Walk.ofOutcome
        (walk env levels (.constructed context.toSettings) 0) env context
      rendered.followBy Walk.ofOutcome
        (fun next => walk env levels options (depth + 1) (.fragment next)) depth
    | target => .ofOutcome (evaluate env context target)
termination_by structural levels

/-! ## Levels -/

mutual

/-- How many evaluations a fragment takes that go on inside one another, its own included. -/
def Fragment.levels : Fragment → Nat
  | .lines members _ => Value.levelsEach members + 1
  | .clause _ value => Value.levels value + 1
  | .template _ _ _ values => Value.levelsEach values + 1
  | .deferred _ target _ => Value.levels target + 1
  | .endless _ _ => maxResolutionDepth + 1
  | _ => 1
termination_by structural f => f

def Value.levels : Value → Nat
  | .fragment f => Fragment.levels f
  | _ => 1
termination_by structural v => v

def Value.levelsEach : List Value → Nat
  | [] => 0
  | value :: rest => max (Value.levels value) (Value.levelsEach rest)
termination_by structural vs => vs

end

/-! ## One step of a render -/

theorem evaluate_promoted {context : Context} (value : Value) :
    evaluate env context value.promoted = promote env context value := by
  unfold Value.promoted promote
  split
  · rw [evaluate, resolve]
  · rfl

private theorem promotedEach_eq {context : Context} (values : List Value) :
    promotedEach env context values = valuesBy (evaluate env context) values := by
  induction values with
  | nil => rfl
  | cons value rest ih => rw [promotedEach_cons, valuesBy, evaluate_promoted, ih]

theorem valuesBy_eq_mapM {m : Type → Type} [Monad m] [LawfulMonad m]
    (evaluate : Value → m Rendered) (values : List Value) :
    valuesBy evaluate values = (values.map Value.promoted).mapM evaluate := by
  induction values with
  | nil => rfl
  | cons value rest ih => rw [valuesBy, ih, List.map_cons, List.mapM_cons]

theorem promotedEach_eq_mapM {context : Context} (values : List Value) :
    promotedEach env context values = (values.map Value.promoted).mapM (evaluate env context) := by
  rw [promotedEach_eq, valuesBy_eq_mapM]

private theorem linesFrom_eq {context : Context} (separator sql : Value) (bindings : List Value)
    (members : List Value) :
    linesFrom env context separator sql bindings members =
      linesBy id (evaluate env context) separator sql bindings members := by
  induction members generalizing sql bindings with
  | nil => rfl
  | cons member rest ih =>
    rw [linesFrom_cons, linesBy]
    simp only [ih, id]

@[simp]
theorem followBy_result {m : Type → Type} [Monad m] (lift : ∀ {α : Type}, Outcome α → m α)
    (next : Fragment → m Rendered) (depth : Nat) (result : Result) :
    (Rendered.result result).followBy lift next depth = pure (.result result) := rfl

private theorem follow_eq_followBy {context : Context} (depth : Nat) (target : Value) :
    follow env context depth target =
      (Rendered.other target).followBy id (resolve env context (depth + 1)) depth := by
  cases target <;> rfl

private theorem resolve_endless {context : Context} (depth : Nat) (label : Label)
    (assigned : List (String × Value)) :
    resolve env context depth (.endless label assigned) = (do
      context.enter (.endless label assigned)
      follow env context depth (.fragment (.endless label assigned))) := by
  rw [resolve, follow]
  cases hallow : context.allow (.endless label assigned) with
  | error cause => simp only [enter_of_error hallow, fail_bind]
  | ok =>
    split
    · next hdeep =>
      rw [Nat.sub_eq_zero_of_le hdeep]
      rfl
    · next hdeep =>
      have hleft : maxResolutionDepth - depth = maxResolutionDepth - (depth + 1) + 1 := by omega
      rw [resolve, hleft, enter_of_ok hallow]
      rfl

/-- A render is the render of the fragment itself, followed by that of the fragment it renders to,
if it does. -/
theorem resolve_eq_followBy {context : Context} (depth : Nat) (f : Fragment) :
    resolve env context depth f = (do
      context.enter f
      let rendered ← f.renderBy id (evaluate env context) env context
      rendered.followBy id (resolve env context (depth + 1)) depth) := by
  cases f with
  | raw value =>
    rw [resolve_raw]
    simp only [Fragment.renderBy, id, bind_assoc, pure_bind, followBy_result]
  | identifier name =>
    rw [resolve]
    simp only [Fragment.renderBy, id, bind_assoc, pure_bind, followBy_result]
  | parameter value =>
    rw [resolve, Context.parameter]
    simp only [Fragment.renderBy, id, bind_assoc, pure_bind, followBy_result]
  | parameterList values separator =>
    rw [resolve_parameterList]
    simp only [Fragment.renderBy, id, bind_assoc, pure_bind, followBy_result]
  | columnList columns separator =>
    rw [resolve]
    simp only [Fragment.renderBy, id, bind_assoc, pure_bind, followBy_result]
  | lines members separator =>
    rw [resolve, linesFrom_eq]
    simp only [Fragment.renderBy, bind_assoc, pure_bind, followBy_result]
  | clause strings value =>
    rw [resolve_clause]
    simp only [Fragment.renderBy, id, bind_assoc, pure_bind, followBy_result]
  | template label form strings values =>
    rw [resolve, promotedEach_eq]
    simp only [Fragment.renderBy, id, bind_assoc, pure_bind, followBy_result]
  | leaf label form text bindings assigned =>
    rw [resolve_leaf]
    simp only [Fragment.renderBy, id, bind_assoc, pure_bind, followBy_result]
  | probe label assigned =>
    rw [resolve]
    simp only [Fragment.renderBy, pure_bind, followBy_result]
  | deferred label target assigned =>
    rw [resolve_deferred]
    simp only [Fragment.renderBy, pure_bind, follow_eq_followBy]
  | endless label assigned =>
    rw [resolve_endless]
    simp only [Fragment.renderBy, pure_bind, follow_eq_followBy]
  | unrenderable label kind assigned =>
    rw [resolve]
    simp only [Fragment.renderBy, pure_bind, followBy_result]

theorem eq_of_renderBy_other {context : Context} {f : Fragment} {value : Value}
    (h : (f.renderBy id (evaluate env context) env context).answer = .ok (.other value)) :
    (∃ label assigned, f = .deferred label value assigned) ∨
      ∃ label assigned, f = .endless label assigned ∧ value = .fragment f := by
  cases f with
  | deferred label target assigned =>
    cases h
    exact .inl ⟨label, assigned, rfl⟩
  | endless label assigned =>
    cases h
    exact .inr ⟨label, assigned, rfl, rfl⟩
  | raw | identifier | parameter | parameterList | lines =>
    obtain ⟨_, _, h⟩ := answer_bind_eq_ok.1 h
    cases h
  | columnList | clause =>
    obtain ⟨_, _, h⟩ := answer_bind_eq_ok.1 h
    obtain ⟨_, _, h⟩ := answer_bind_eq_ok.1 h
    obtain ⟨_, _, h⟩ := answer_bind_eq_ok.1 h
    cases h
  | template | leaf =>
    obtain ⟨_, _, h⟩ := answer_bind_eq_ok.1 h
    obtain ⟨_, _, h⟩ := answer_bind_eq_ok.1 h
    cases h
  | probe | unrenderable => cases h

/-! ## Visits of one render -/

section

variable {P : Visit → Prop} {evaluate : Value → Walk Rendered} {context : Context}

private theorem forall_visits_valuesBy {values : List Value}
    (h : ∀ value ∈ values.map Value.promoted, ∀ v ∈ (evaluate value).visits, P v) :
    ∀ v ∈ (valuesBy evaluate values).visits, P v := by
  induction values with
  | nil => exact fun _ hv => by cases hv
  | cons value rest ih =>
    rw [List.map_cons, List.forall_mem_cons] at h
    apply Walk.forall_visits_bind h.1
    intro rendered
    apply Walk.forall_visits_bind (ih h.2)
    exact fun _ _ hv => by cases hv

private theorem forall_visits_linesBy {members : List Value}
    (h : ∀ member ∈ members, ∀ v ∈ (evaluate member).visits, P v) (separator sql : Value)
    (bindings : List Value) :
    ∀ v ∈ (linesBy Walk.ofOutcome evaluate separator sql bindings members).visits, P v := by
  induction members generalizing sql bindings with
  | nil => exact fun _ hv => by cases hv
  | cons member rest ih =>
    rw [List.forall_mem_cons] at h
    apply Walk.forall_visits_bind h.1
    intro rendered
    apply Walk.forall_visits_ofOutcome_bind
    intro result
    apply Walk.forall_visits_ofOutcome_bind
    intro extended
    exact ih h.2 _ _

theorem forall_visits_renderBy {f : Fragment}
    (h : ∀ value ∈ f.parts, ∀ v ∈ (evaluate value).visits, P v) :
    ∀ v ∈ (f.renderBy Walk.ofOutcome evaluate env context).visits, P v := by
  cases f with
  | lines members separator =>
    apply Walk.forall_visits_bind (forall_visits_linesBy h separator (.text "") [])
    exact fun _ _ hv => by cases hv
  | clause strings value =>
    apply Walk.forall_visits_bind (h value List.mem_cons_self)
    intro rendered
    apply Walk.forall_visits_ofOutcome_bind
    intro inner
    apply Walk.forall_visits_ofOutcome_bind
    exact fun _ _ hv => by cases hv
  | template label form strings values =>
    apply Walk.forall_visits_bind (forall_visits_valuesBy h)
    intro rendered
    apply Walk.forall_visits_ofOutcome_bind
    exact fun _ _ hv => by cases hv
  | raw | identifier | parameter | parameterList | columnList | leaf | probe | deferred | endless
  | unrenderable => exact fun _ hv => by cases hv

end

/-! ## Walks and renders -/

section

variable {context : Context} {options : Options}

theorem Value.fragment_or_ne (value : Value) :
    (∃ f, value = .fragment f) ∨ ∀ f, value ≠ .fragment f := by
  cases value with
  | fragment f => exact .inl ⟨f, rfl⟩
  | _ => exact .inr fun _ h => by cases h

theorem Fragment.one_le_levels (f : Fragment) : 1 ≤ f.levels := by
  cases f <;> simp [levels, maxResolutionDepth]

theorem Value.one_le_levels (value : Value) : 1 ≤ value.levels := by
  cases value with
  | fragment f => exact f.one_le_levels
  | _ => exact Nat.le_refl 1

private theorem levels_promoted (value : Value) : value.promoted.levels = value.levels := by
  unfold Value.promoted
  split
  · next hplain =>
    cases value with
    | fragment f => cases hplain
    | _ => rfl
  · rfl

private theorem levels_le_of_mem {values : List Value} {levels : Nat}
    (h : Value.levelsEach values ≤ levels) : ∀ value ∈ values, value.levels ≤ levels := by
  induction values with
  | nil => exact fun _ hvalue => by cases hvalue
  | cons first rest ih =>
    rw [Value.levelsEach] at h
    rw [List.forall_mem_cons]
    exact ⟨Nat.le_trans (Nat.le_max_left _ _) h, ih (Nat.le_trans (Nat.le_max_right _ _) h)⟩

theorem Fragment.levels_part {f : Fragment} {levels : Nat} (h : f.levels ≤ levels + 1) :
    ∀ value ∈ f.parts, value.levels ≤ levels := by
  cases f with
  | lines members separator => exact levels_le_of_mem (Nat.le_of_succ_le_succ h)
  | clause strings value =>
    intro part hpart
    rw [List.mem_singleton.1 hpart]
    exact Nat.le_of_succ_le_succ h
  | template label form strings values =>
    intro part hpart
    obtain ⟨value, hvalue, rfl⟩ := List.mem_map.1 hpart
    rw [levels_promoted]
    exact levels_le_of_mem (Nat.le_of_succ_le_succ h) value hvalue
  | _ => exact fun _ hpart => by cases hpart

/-- What holds of a fragment where it holds of its parts, and of all other things, always holds. -/
theorem Value.parts_induction {motive : Value → Prop}
    (fragment : ∀ f : Fragment, (∀ value ∈ f.parts, motive value) → motive (.fragment f))
    (other : ∀ value : Value, (∀ f, value ≠ .fragment f) → motive value) (target : Value) :
    motive target := by
  induction hlevels : target.levels using Nat.strongRecOn generalizing target with
  | _ levels ih =>
    rcases target.fragment_or_ne with ⟨f, rfl⟩ | hne
    · apply fragment
      intro value hvalue
      obtain ⟨below, hbelow⟩ : ∃ n, f.levels = n + 1 :=
        ⟨f.levels - 1, by have := f.one_le_levels; omega⟩
      have hpart := Fragment.levels_part (Nat.le_of_eq hbelow) value hvalue
      have hless : value.levels < levels := by
        rw [← hlevels, Value.levels]
        omega
      exact ih value.levels hless value rfl
    · exact other target hne

section

variable {evaluate' : Value → Walk Rendered}

private theorem outcome?_valuesBy {values : List Value}
    (h : ∀ value ∈ values.map Value.promoted,
      (evaluate' value).outcome? = some (evaluate env context value)) :
    (valuesBy evaluate' values).outcome? = some (valuesBy (evaluate env context) values) := by
  induction values with
  | nil => rfl
  | cons value rest ih =>
    rw [List.map_cons, List.forall_mem_cons] at h
    apply Walk.outcome?_bind h.1
    intro rendered _
    apply Walk.outcome?_bind (ih h.2)
    intro others _
    rfl

private theorem outcome?_linesBy {members : List Value}
    (h : ∀ member ∈ members, (evaluate' member).outcome? = some (evaluate env context member))
    (separator sql : Value) (bindings : List Value) :
    (linesBy Walk.ofOutcome evaluate' separator sql bindings members).outcome? =
      some (linesBy id (evaluate env context) separator sql bindings members) := by
  induction members generalizing sql bindings with
  | nil => rfl
  | cons member rest ih =>
    rw [List.forall_mem_cons] at h
    apply Walk.outcome?_bind h.1
    intro rendered _
    apply Walk.outcome?_bind rfl
    intro result _
    apply Walk.outcome?_bind rfl
    intro extended _
    exact ih h.2 _ _

theorem outcome?_renderBy {f : Fragment}
    (h : ∀ value ∈ f.parts, (evaluate' value).outcome? = some (evaluate env context value)) :
    (f.renderBy Walk.ofOutcome evaluate' env context).outcome? =
      some (f.renderBy id (evaluate env context) env context) := by
  cases f with
  | lines members separator =>
    apply Walk.outcome?_bind (outcome?_linesBy h separator (.text "") [])
    intro result _
    rfl
  | clause strings value =>
    apply Walk.outcome?_bind (h value List.mem_cons_self)
    intro rendered _
    apply Walk.outcome?_bind rfl
    intro inner _
    apply Walk.outcome?_bind rfl
    intro result _
    rfl
  | template label form strings values =>
    apply Walk.outcome?_bind (outcome?_valuesBy h)
    intro rendered _
    apply Walk.outcome?_bind rfl
    intro result _
    rfl
  | raw | identifier | parameter | parameterList | columnList | leaf | probe | deferred | endless
  | unrenderable => rfl

end

theorem walk_fragment (hcontext : options.normalize = .ok context) (levels depth : Nat)
    (f : Fragment) :
    walk env (levels + 1) options depth (.fragment f) = (do
      Walk.ofOutcome (context.enter f)
      Walk.visit ⟨f, context, depth⟩
      let rendered ← f.renderBy Walk.ofOutcome
        (walk env levels (.constructed context.toSettings) 0) env context
      rendered.followBy Walk.ofOutcome
        (fun next => walk env levels options (depth + 1) (.fragment next)) depth) := by
  rw [walk, hcontext]
  exact Walk.ofOutcome_pure_bind context _

theorem walk_of_ne_fragment (hcontext : options.normalize = .ok context) {target : Value}
    (h : ∀ f, target ≠ .fragment f) (levels depth : Nat) :
    walk env (levels + 1) options depth target = .ofOutcome (evaluate env context target) := by
  rw [walk, hcontext]
  refine (Walk.ofOutcome_pure_bind context _).trans ?_
  split
  · next f => exact absurd rfl (h f)
  · rfl

theorem walk_of_error {cause : Failure} (h : options.normalize = .error cause)
    (levels depth : Nat) (target : Value) :
    walk env (levels + 1) options depth target = .ofOutcome (.fail cause) := by
  rw [walk, h]
  rfl

private theorem outcome?_walk_of_ne_fragment (hcontext : options.normalize = .ok context)
    {target : Value} (h : ∀ f, target ≠ .fragment f) {levels : Nat}
    (hlevels : target.levels ≤ levels) :
    (walk env levels options 0 target).outcome? = some (evaluate env context target) := by
  cases levels with
  | zero => exact absurd hlevels (Nat.not_le_of_lt target.one_le_levels)
  | succ levels =>
    rw [walk_of_ne_fragment hcontext h]
    rfl

/-- Whether there are enough levels left for a fragment that comes after others. One that renders
to itself takes no more than are left before there were too many in a row. -/
def Fragment.Fits (levels depth : Nat) (f : Fragment) : Prop :=
  f.levels ≤ levels ∨ ∃ label assigned, f = .endless label assigned ∧ 1 ≤ levels ∧
    maxResolutionDepth + 1 ≤ levels + depth

theorem Fragment.Fits.next {levels depth : Nat} {f next : Fragment} (h : f.Fits (levels + 1) depth)
    (hanswer : (f.renderBy id (evaluate env context) env context).answer =
      .ok (.other (.fragment next))) (hdepth : depth < maxResolutionDepth) :
    next.Fits levels (depth + 1) := by
  rcases eq_of_renderBy_other hanswer with ⟨label, assigned, rfl⟩ | ⟨label, assigned, rfl, hself⟩
  · rcases h with h | ⟨_, _, h, _⟩
    · exact .inl (Nat.le_of_succ_le_succ h)
    · cases h
  · cases hself
    refine .inr ⟨label, assigned, rfl, ?_⟩
    rcases h with h | ⟨_, _, _, _, h⟩
    · rw [Fragment.levels] at h
      omega
    · omega

theorem Fragment.Fits.part {levels depth : Nat} {f : Fragment} (h : f.Fits (levels + 1) depth) :
    ∀ value ∈ f.parts, value.levels ≤ levels := by
  rcases h with h | ⟨_, _, rfl, _⟩
  · exact Fragment.levels_part h
  · exact fun _ hpart => by cases hpart

theorem outcome?_walk_fragment (hcontext : options.normalize = .ok context) {levels depth : Nat}
    {f : Fragment} (hfits : f.Fits levels depth) :
    (walk env levels options depth (.fragment f)).outcome? = some (resolve env context depth f) := by
  induction levels generalizing options depth f with
  | zero =>
    have hlevels := f.one_le_levels
    rcases hfits with h | ⟨_, _, _, h, _⟩ <;> omega
  | succ levels ih =>
    rw [walk_fragment hcontext, resolve_eq_followBy]
    apply Walk.outcome?_bind rfl
    intro _ _
    rw [Walk.outcome?_visit_bind]
    have hparts : ∀ value ∈ f.parts,
        (walk env levels (.constructed context.toSettings) 0 value).outcome? =
          some (evaluate env context value) := by
      intro value hvalue
      have hlevels := hfits.part value hvalue
      have hagain := Options.normalize_toSettings hcontext
      rcases value.fragment_or_ne with ⟨g, rfl⟩ | hne
      · exact ih hagain (.inl hlevels)
      · exact outcome?_walk_of_ne_fragment hagain hne hlevels
    apply Walk.outcome?_bind (outcome?_renderBy hparts)
    intro rendered hrendered
    cases rendered with
    | result result => rfl
    | other value =>
      cases value with
      | fragment next =>
        simp only [Rendered.followBy]
        split
        · rfl
        · next hdepth => exact ih hcontext (hfits.next hrendered (Nat.lt_of_not_le hdepth))
      | _ => rfl

theorem outcome?_walk_of_normalize (hcontext : options.normalize = .ok context) {levels : Nat}
    {target : Value} (hlevels : target.levels ≤ levels) :
    (walk env levels options 0 target).outcome? = some (evaluate env context target) := by
  rcases target.fragment_or_ne with ⟨f, rfl⟩ | hne
  · exact outcome?_walk_fragment hcontext (.inl hlevels)
  · exact outcome?_walk_of_ne_fragment hcontext hne hlevels

def Options.evaluate (options : Options) (env : Environment) (target : Value) : Outcome Rendered :=
  do
  let context ← Outcome.ofExcept options.normalize
  SqlFragments.evaluate env context target

theorem Options.answer_evaluate (options : Options) (env : Environment) (target : Value) :
    (options.evaluate env target).answer = options.render env target := by
  rw [evaluate, answer_bind]
  rfl

/-- Evaluations inside one another come to an end, and to what the thing renders to. -/
theorem outcome?_walk (options : Options) {levels : Nat} {target : Value}
    (hlevels : target.levels ≤ levels) :
    (walk env levels options 0 target).outcome? = some (options.evaluate env target) := by
  cases hcontext : options.normalize with
  | error cause =>
    obtain ⟨levels, rfl⟩ : ∃ n, levels = n + 1 := by
      have hone : 1 ≤ target.levels := target.one_le_levels
      exact ⟨levels - 1, by omega⟩
    rw [walk_of_error hcontext, Options.evaluate, hcontext]
    rfl
  | ok context =>
    have hevaluate : options.evaluate env target = evaluate env context target := by
      rw [Options.evaluate, hcontext]
      exact pure_bind context _
    rw [hevaluate]
    exact outcome?_walk_of_normalize hcontext hlevels

def Options.visits (options : Options) (env : Environment) (target : Value) : List Visit :=
  (walk env target.levels options 0 target).visits

end

end SqlFragments
