import Mathlib
import SqlFragments.Config
import SqlFragments.Fragment.Build
import SqlFragments.Proofs.Render.Walk

/-!
# Contexts handed on

A context that is handed on as options is normalized again, at every fragment on the way down.
Nothing is lost by it: what was normalized stays as it is, so every fragment below is rendered under
the context that the options make, and options with one context cannot be told apart.
-/

namespace SqlFragments

open Outcome

variable {env : Environment} {context : Context}

/-! ## Visits of a walk -/

/-- Whatever is visited, however far down, is given the context of the options at the start. -/
theorem context_of_mem_visits {options : Options} (hcontext : options.normalize = .ok context)
    (levels depth : Nat) (target : Value) :
    ∀ v ∈ (walk env levels options depth target).visits, v.context = context := by
  induction levels generalizing options depth target with
  | zero => exact fun _ hv => by cases hv
  | succ levels ih =>
    rcases target.fragment_or_ne with ⟨f, rfl⟩ | hne
    · rw [walk_fragment hcontext]
      apply Walk.forall_visits_ofOutcome_bind
      intro _
      rw [Walk.visits_visit_bind, List.forall_mem_cons]
      refine ⟨rfl, ?_⟩
      -- Below, the options are the context itself, which makes itself again.
      apply Walk.forall_visits_bind
        (forall_visits_renderBy fun value _ => ih (Options.normalize_toSettings hcontext) 0 value)
      intro rendered
      cases rendered with
      | result result => exact fun _ hv => by cases hv
      | other value =>
        cases value with
        | fragment next =>
          simp only [Rendered.followBy]
          split
          · exact fun _ hv => by cases hv
          · exact ih hcontext (depth + 1) (.fragment next)
        | _ => exact fun _ hv => by cases hv
    · rw [walk_of_ne_fragment hcontext hne]
      exact fun _ hv => by cases hv

theorem normalize_of_mem_visits (options : Options) (levels depth : Nat) (target : Value) :
    ∀ v ∈ (walk env levels options depth target).visits, options.normalize = .ok v.context := by
  cases hcontext : options.normalize with
  | error cause =>
    cases levels with
    | zero => exact fun _ hv => by cases hv
    | succ levels =>
      rw [walk_of_error hcontext]
      exact fun _ hv => by cases hv
  | ok context =>
    intro v hv
    rw [context_of_mem_visits hcontext levels depth target v hv]

theorem walk_congr {options others : Options} (h : options.normalize = others.normalize)
    (levels depth : Nat) (target : Value) :
    walk env levels options depth target = walk env levels others depth target := by
  induction levels generalizing depth target with
  | zero => rfl
  | succ levels ih =>
    rw [walk, walk, h]
    simp only [ih]

/-! ## Options and their context -/

theorem RenderConfig.normalize_toContext (label : Label) (config : RenderConfig) :
    (Options.constructed (config.toContext label).toSettings).normalize =
      .ok (config.toContext label) :=
  congrArg Except.ok (Context.ofFields_toEntries _)

/-- Options count by the context that they make. Making it is done once and for all, also where the
context comes from a configuration; to evaluate a thing under options is to evaluate it under their
context; options that make one context have one outcome; and evaluation comes to that outcome with
every fragment on the way, however deep, rendered under just that context. -/
theorem Options.one_context (options : Options) (env : Environment) (target : Value) :
    (∀ context, options.normalize = .ok context →
      (constructed context.toSettings).normalize = .ok context ∧
      (constructed context.toSettings).evaluate env target = options.evaluate env target) ∧
    (∀ label config,
      (constructed (RenderConfig.toContext label config).toSettings).normalize =
        .ok (config.toContext label)) ∧
    (∀ cause, options.normalize = .error cause → options.evaluate env target = .fail cause) ∧
    (∀ others : Options, others.normalize = options.normalize →
      others.evaluate env target = options.evaluate env target ∧
      ∀ levels, walk env levels others 0 target = walk env levels options 0 target) ∧
    ∀ levels, target.levels ≤ levels →
      (walk env levels options 0 target).outcome? = some (options.evaluate env target) ∧
      ∀ visit ∈ (walk env levels options 0 target).visits,
        options.normalize = .ok visit.context := by
  have hsame : ∀ others : Options, others.normalize = options.normalize →
      others.evaluate env target = options.evaluate env target := by
    intro others h
    rw [evaluate, evaluate, h]
  refine ⟨?_, RenderConfig.normalize_toContext, ?_, ?_, ?_⟩
  · intro context hcontext
    have hagain := normalize_toSettings hcontext
    exact ⟨hagain, hsame _ (hagain.trans hcontext.symm)⟩
  · intro cause hcause
    rw [evaluate, hcause]
    rfl
  · intro others h
    exact ⟨hsame others h, fun levels => walk_congr h levels 0 target⟩
  · intro levels hlevels
    exact ⟨outcome?_walk options hlevels, normalize_of_mem_visits options levels 0 target⟩

/-- Settings that are empty or unknown make the default context, and so does their absence; a probe
in lines in a clause, behind two fragments that defer to it, is rendered under it. -/
theorem Options.one_context_deferred :
    let options : Options := .mapping 0 [(.text "timezone", .value (.text "")),
      (.text "with_parameters", .value (.int 0)), (.text "unknown", .value (.int 1))]
    let target : Value := .fragment (.template 0 .statement [.text "SELECT ", .text ""]
      [.fragment (.clause [.text "a", .text ""] (.fragment (.lines
        [Fragment.deferredBy [2, 3] (.fragment (.probe 1 []))] (.text "\n"))))])
    (options.normalize = .ok {} ∧ Options.absent.normalize = options.normalize ∧
      target.levels ≤ 6) ∧
    ((constructed ({} : Context).toSettings).normalize = .ok {} ∧
      (constructed ({} : Context).toSettings).evaluate {} target = options.evaluate {} target) ∧
    (Options.absent.evaluate {} target = options.evaluate {} target ∧
      ∀ levels, walk {} levels Options.absent 0 target = walk {} levels options 0 target) ∧
    (walk {} 6 options 0 target).outcome? = some (options.evaluate {} target) ∧
    ∀ visit ∈ (walk {} 6 options 0 target).visits, options.normalize = .ok visit.context := by
  intro options target
  have hcontext : options.normalize = .ok {} := by cbv
  have habsent : Options.absent.normalize = options.normalize := hcontext.symm
  have hlevels : target.levels ≤ 6 := by decide
  obtain ⟨hagain, _, _, hothers, hwalk⟩ := one_context options {} target
  exact ⟨⟨hcontext, habsent, hlevels⟩, hagain {} hcontext, hothers .absent habsent,
    hwalk 6 hlevels⟩

end SqlFragments
