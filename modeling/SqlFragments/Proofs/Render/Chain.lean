import Mathlib.Data.ENat.Basic
import SqlFragments.Fragment.Build
import SqlFragments.Proofs.Render.Handing
import SqlFragments.Proofs.Render.Overrun

/-!
# Chains

A fragment that renders to another one begins a chain, which goes on to where a result comes out.
The limit counts the steps of one chain. Whatever is evaluated begins a chain of its own, so chains
inside one another or next to one another never add up.
-/

namespace SqlFragments

open Outcome

variable {env : Environment} {context : Context}

/-! ## The length of a chain -/

def Fragment.next? : Fragment → Option Fragment
  | .deferred _ (.fragment g) _ => some g
  | .endless label assigned => some (.endless label assigned)
  | _ => none

mutual

/-- How many steps a chain goes on from a fragment. One that renders to itself never ends it. -/
def Fragment.hops : Fragment → ℕ∞
  | .deferred label target assigned =>
    if (Fragment.deferred label target assigned).isRenderable then Value.hopsTo target else 0
  | .endless label assigned => if (Fragment.endless label assigned).isRenderable then ⊤ else 0
  | _ => 0
termination_by structural f => f

/-- The steps of a chain up to a value and on from it. Only a fragment takes a step. -/
def Value.hopsTo : Value → ℕ∞
  | .fragment f => Fragment.hops f + 1
  | _ => 0
termination_by structural v => v

end

namespace Fragment

theorem hops_of_not_renderable {f : Fragment} (h : f.isRenderable = false) : f.hops = 0 := by
  cases f <;> simp [hops, h]

theorem hops_of_next {f g : Fragment} (hf : f.isRenderable) (h : f.next? = some g) :
    f.hops = g.hops + 1 := by
  unfold next? at h
  split at h
  · cases h
    rw [hops, if_pos hf, Value.hopsTo]
  · cases h
    rw [hops, if_pos hf]
    rfl
  · cases h

theorem hops_of_next_none {f : Fragment} (h : f.next? = none) : f.hops = 0 := by
  cases f with
  | deferred label target assigned =>
    cases target with
    | fragment g => cases h
    | _ => simp [hops, Value.hopsTo]
  | endless => cases h
  | _ => rfl

theorem hops_of_assignable {f : Fragment} (h : f.assignable? = none) : f.hops = 0 := by
  cases f with
  | deferred | endless => cases h
  | _ => rfl

theorem next_of_hops_ne_zero {f : Fragment} (h : f.hops ≠ 0) :
    ∃ g, f.next? = some g ∧ f.hops = g.hops + 1 := by
  cases hf : f.isRenderable with
  | false => exact absurd (hops_of_not_renderable hf) h
  | true =>
    cases hnext : f.next? with
    | none => exact absurd (hops_of_next_none hnext) h
    | some g => exact ⟨g, rfl, hops_of_next hf hnext⟩

theorem renderBy_of_next {m : Type → Type} [Monad m] {lift : ∀ {α : Type}, Outcome α → m α}
    {evaluate : Value → m Rendered} {f g : Fragment} (h : f.next? = some g) :
    f.renderBy lift evaluate env context = pure (.other (.fragment g)) := by
  unfold next? at h
  split at h
  · cases h
    rfl
  · cases h
    rfl
  · cases h

end Fragment

/-! ## A step of a walk -/

section

variable {m : Type → Type} [Monad m] [LawfulMonad m] {lift : ∀ {α : Type}, Outcome α → m α}

private theorem renderBy_followBy
    (hbind : ∀ {α β : Type} (outcome : Outcome α) (next : α → Outcome β),
      lift (outcome >>= next) = lift outcome >>= fun a => lift (next a))
    (hpure : ∀ {α : Type} (a : α), lift (pure a) = pure a) {f : Fragment} (h : f.next? = none)
    {evaluate : Value → m Rendered} (next : Fragment → m Rendered) (depth : Nat) :
    (do
      let rendered ← f.renderBy lift evaluate env context
      rendered.followBy lift next depth) = f.renderBy lift evaluate env context := by
  cases f with
  | deferred label target assigned =>
    cases target with
    | fragment g => cases h
    | _ => exact pure_bind _ _
  | endless => cases h
  | probe | unrenderable => exact pure_bind _ _
  | _ => simp only [Fragment.renderBy, hbind, hpure, bind_assoc, pure_bind, followBy_result]

end

theorem resolve_of_next_none {f : Fragment} (h : f.next? = none) (depth : Nat) :
    resolve env context depth f = (do
      context.enter f
      f.renderBy id (evaluate env context) env context) := by
  rw [resolve_eq_followBy]
  congr 1
  funext _
  exact renderBy_followBy (fun _ _ => rfl) (fun _ => rfl) h _ depth

theorem walk_of_next_none {options : Options} (hcontext : options.normalize = .ok context)
    {f : Fragment} (h : f.next? = none) (levels depth : Nat) :
    walk env (levels + 1) options depth (.fragment f) = (do
      Walk.ofOutcome (context.enter f)
      Walk.visit ⟨f, context, depth⟩
      f.renderBy Walk.ofOutcome (walk env levels (.constructed context.toSettings) 0) env
        context) := by
  rw [walk_fragment hcontext]
  simp only [renderBy_followBy Walk.ofOutcome_bind (fun _ => rfl) h]

theorem walk_of_next {options : Options} (hcontext : options.normalize = .ok context)
    {f g : Fragment} (h : f.next? = some g) (levels depth : Nat) :
    walk env (levels + 1) options depth (.fragment f) = (do
      Walk.ofOutcome (context.enter f)
      Walk.visit ⟨f, context, depth⟩
      if depth ≥ maxResolutionDepth then
        Walk.ofOutcome (.fail (.resolutionTooDeep maxResolutionDepth))
      else walk env levels options (depth + 1) (.fragment g)) := by
  rw [walk_fragment hcontext]
  simp only [Fragment.renderBy_of_next h, pure_bind, Rendered.followBy]

namespace Context

theorem allow_eq_ok {f : Fragment} :
    context.allow f = .ok () ↔
      context.escape.isCallable ∧ context.escapeId.isCallable ∧ f.isRenderable := by
  unfold allow
  cases context.escape.isCallable <;> cases context.escapeId.isCallable <;>
    cases f.isRenderable <;> simp

theorem allow_or (context : Context) (f : Fragment) :
    (∃ cause, context.allow f = .error cause) ∨ context.allow f = .ok () := by
  cases context.allow f with
  | error cause => exact .inl ⟨cause, rfl⟩
  | ok => exact .inr rfl

theorem category_of_allow {f : Fragment} {cause : Failure} (h : context.allow f = .error cause) :
    cause.category = .invalidState ∧ cause ≠ .resolutionTooDeep maxResolutionDepth := by
  unfold allow at h
  split at h
  · cases h
    exact ⟨rfl, fun h => by cases h⟩
  · split at h
    · cases h
      exact ⟨rfl, fun h => by cases h⟩
    · split at h
      · cases h
      · cases h
        exact ⟨rfl, fun h => by cases h⟩

theorem allow_of_renderable {f g : Fragment} {cause : Failure} (hf : f.isRenderable)
    (h : context.allow f = .error cause) : context.allow g = .error cause := by
  unfold allow at h ⊢
  cases hescape : context.escape.isCallable <;> cases hescapeId : context.escapeId.isCallable <;>
    simp [hescape, hescapeId, hf] at h ⊢ <;> exact h

end Context

theorem Options.category_of_normalize {options : Options} {cause : Failure}
    (h : options.normalize = .error cause) :
    cause.category = .invalidState ∧ cause ≠ .resolutionTooDeep maxResolutionDepth := by
  cases options with
  | other given =>
    cases h
    exact ⟨rfl, fun h => by cases h⟩
  | absent | mapping | constructed => cases h

/-! ## The limit along one chain -/

theorem answer_resolve_of_error {depth : Nat} {f : Fragment} {cause : Failure}
    (h : context.allow f = .error cause) :
    (resolve env context depth f).answer = .error cause := by
  rw [resolve_eq_followBy, enter_of_error h]
  rfl

theorem answer_evaluate_of_error {f : Fragment} {cause : Failure}
    (h : context.allow f = .error cause) :
    (evaluate env context (.fragment f)).answer = .error cause := by
  rw [evaluate, answer_resolve_of_error h]

theorem answer_resolve_of_next {depth : Nat} {f g : Fragment} (hallow : context.allow f = .ok ())
    (h : f.next? = some g) :
    (resolve env context depth f).answer =
      if depth ≥ maxResolutionDepth then .error (.resolutionTooDeep maxResolutionDepth)
      else (resolve env context (depth + 1) g).answer := by
  rw [resolve_eq_followBy, enter_of_ok hallow, Fragment.renderBy_of_next h, pure_bind,
    Rendered.followBy, answer_bind]
  split <;> rfl

theorem answer_resolve_of_hops_zero {f : Fragment} (h : f.hops = 0) (depth : Nat) :
    (resolve env context depth f).answer = (resolve env context 0 f).answer := by
  rcases context.allow_or f with ⟨cause, hallow⟩ | hallow
  · rw [answer_resolve_of_error hallow, answer_resolve_of_error hallow]
  · cases hnext : f.next? with
    | none => rw [resolve_of_next_none hnext, resolve_of_next_none hnext]
    | some g =>
      rw [Fragment.hops_of_next (Context.allow_eq_ok.1 hallow).2.2 hnext] at h
      simp at h

/-- As long as the limit is not passed, a chain comes to the same wherever it is counted from. -/
theorem answer_resolve_within {depth hops : Nat} {f : Fragment} (hhops : f.hops = hops)
    (h : depth + hops ≤ maxResolutionDepth) :
    (resolve env context depth f).answer = (resolve env context 0 f).answer := by
  induction hops generalizing depth f with
  | zero => exact answer_resolve_of_hops_zero hhops depth
  | succ hops ih =>
    cases hallow : context.allow f with
    | error cause => rw [answer_resolve_of_error hallow, answer_resolve_of_error hallow]
    | ok =>
      obtain ⟨g, hnext, hg⟩ := Fragment.next_of_hops_ne_zero (f := f) (by simp [hhops])
      have hrest : g.hops = hops := by
        rw [hhops, Nat.cast_succ] at hg
        exact (ENat.add_left_injective_of_ne_top ENat.one_ne_top hg).symm
      have hlater : (resolve env context (depth + 1) g).answer = (resolve env context 0 g).answer :=
        ih hrest (by omega)
      have hfirst : (resolve env context (0 + 1) g).answer = (resolve env context 0 g).answer :=
        ih hrest (by omega)
      rw [answer_resolve_of_next hallow hnext, answer_resolve_of_next hallow hnext,
        if_neg (by omega), if_neg (by decide), hlater, hfirst]

/-- A chain that is longer than the limit fails, wherever it is counted from. -/
theorem answer_resolve_beyond {depth : Nat} {f : Fragment} (hdepth : depth ≤ maxResolutionDepth)
    (h : maxResolutionDepth < depth + f.hops) :
    ∃ cause, (resolve env context depth f).answer = .error cause ∧
      cause.category = .invalidState := by
  have hhops : f.hops ≠ 0 := by
    intro hzero
    rw [hzero, add_zero, Nat.cast_lt] at h
    omega
  obtain ⟨g, hnext, hg⟩ := Fragment.next_of_hops_ne_zero hhops
  cases hallow : context.allow f with
  | error cause =>
    exact ⟨cause, answer_resolve_of_error hallow, (Context.category_of_allow hallow).1⟩
  | ok =>
    rw [answer_resolve_of_next hallow hnext]
    by_cases hlimit : depth ≥ maxResolutionDepth
    · rw [if_pos hlimit]
      exact ⟨_, rfl, rfl⟩
    · rw [if_neg hlimit]
      apply answer_resolve_beyond (by omega)
      rwa [Nat.cast_succ, add_assoc, add_comm 1, ← hg]
termination_by maxResolutionDepth - depth

/-! ## Fragments that defer to one another -/

private theorem answer_evaluate_deferred {hops : Nat} {f : Fragment} (label : Label)
    (hhops : f.hops = hops) (h : hops < maxResolutionDepth) :
    (evaluate env context (.fragment (.deferred label (.fragment f) []))).answer =
      (evaluate env context (.fragment f)).answer := by
  rw [evaluate, evaluate]
  cases hallow : context.allow (.deferred label (.fragment f) []) with
  | error cause =>
    rw [answer_resolve_of_error hallow,
      answer_resolve_of_error (Context.allow_of_renderable rfl hallow)]
  | ok =>
    have hrest : (resolve env context (0 + 1) f).answer = (resolve env context 0 f).answer :=
      answer_resolve_within hhops (by omega)
    rw [answer_resolve_of_next hallow rfl, if_neg (by decide), hrest]

theorem answer_evaluate_deferredBy {labels : List Label} {hops : Nat} {f : Fragment}
    (hhops : f.hops = hops) (h : labels.length + hops ≤ maxResolutionDepth) :
    (evaluate env context (Fragment.deferredBy labels (.fragment f))).answer =
      (evaluate env context (.fragment f)).answer := by
  induction labels generalizing f hops with
  | nil => rfl
  | cons label labels ih =>
    rw [List.length_cons] at h
    have hdeferred : (Fragment.deferred label (.fragment f) []).hops = (hops + 1 : Nat) := by
      rw [Fragment.hops_of_next rfl rfl, hhops]
      rfl
    exact (ih hdeferred (by omega)).trans (answer_evaluate_deferred label hhops (by omega))

theorem answer_evaluate_deferredBy_error {labels : List Label} {f : Fragment}
    (h : maxResolutionDepth < labels.length + f.hops) :
    ∃ cause, (evaluate env context (Fragment.deferredBy labels (.fragment f))).answer =
      .error cause ∧ cause.category = .invalidState := by
  induction labels generalizing f with
  | nil =>
    show ∃ cause, (evaluate env context (.fragment f)).answer = .error cause ∧ _
    rw [evaluate]
    exact answer_resolve_beyond (Nat.zero_le _) h
  | cons label labels ih =>
    apply @ih (.deferred label (.fragment f) [])
    rwa [Fragment.hops_of_next rfl rfl, ← add_assoc, add_right_comm, ← Nat.cast_succ]

end SqlFragments
