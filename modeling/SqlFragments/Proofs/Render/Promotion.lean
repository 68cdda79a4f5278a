import SqlFragments.Proofs.Render.Clause
import SqlFragments.Proofs.Render.Congruence

/-!
# Plain values in a tree

Between literal parts any plain value stands for its parameter. A clause and lines have what they
are given evaluated as it is. There a text comes to what its parameter comes to. Every other plain
value is refused, and so is each tree around it.
-/

namespace SqlFragments

open Outcome

variable {env : Environment} {context : Context} {value : Value}

/-! ## Trees around a place -/

/-- What stands around a fragment: one that has it evaluated in an open place, or one that renders
to it. -/
inductive Layer
  | evaluating (frame : Frame)
  | deferring (label : Label) (assigned : List (String × Value))

def Layer.around (inner : Fragment) : Layer → Fragment
  | evaluating frame => frame.fill inner
  | deferring label assigned => .deferred label (.fragment inner) assigned

def enclose (layers : List Layer) (inner : Fragment) : Fragment :=
  layers.foldl (fun enclosed layer => layer.around enclosed) inner

/-! ## What is done around a place -/

namespace Outcome

variable {α β γ δ ι κ : Type}

/-- Outcomes that are one and the same but for a part: something is done, then the part, and then what
comes of both is gone on with. -/
def Surround (whole part : ι → Outcome Rendered) : Prop :=
  ∃ (α : Type) (first : Outcome α) (next : α → Rendered → Outcome Rendered), ∀ i, whole i = (do
    let a ← first
    let rendered ← part i
    next a rendered)

/-- The second of two outcomes fails for a certain cause, unless both fail for another one before it
gets there. -/
def Refused (refusal : Failure) : Outcome α → Outcome β → Prop :=
  MatchingUnless (· = refusal) fun _ _ => False

protected theorem Refused.bind {refusal : Failure} {x : Outcome α} {y : Outcome β}
    {f : α → Outcome γ} {g : β → Outcome δ} (h : Refused refusal x y) :
    Refused refusal (x >>= f) (y >>= g) :=
  MatchingUnless.bind h fun _ _ impossible => impossible.elim

namespace Surround

variable {whole middle part : ι → Outcome Rendered} {i j : ι}

protected theorem refl (part : ι → Outcome Rendered) : Surround part part :=
  ⟨Unit, pure (), fun _ => pure, fun i => by rw [pure_bind, bind_pure]⟩

protected theorem trans (houter : Surround whole middle) (hinner : Surround middle part) :
    Surround whole part := by
  obtain ⟨α, first, next, hwhole⟩ := houter
  obtain ⟨β, second, go, hmiddle⟩ := hinner
  refine ⟨α × β, (do
    let a ← first
    let b ← second
    pure (a, b)), fun done rendered => go done.2 rendered >>= next done.1, fun i => ?_⟩
  simp only [hwhole, hmiddle, bind_assoc, pure_bind]

theorem comp (h : Surround whole part) (f : κ → ι) :
    Surround (fun k => whole (f k)) (fun k => part (f k)) := by
  obtain ⟨α, first, next, hwhole⟩ := h
  exact ⟨α, first, next, fun k => hwhole (f k)⟩

theorem answer_congr (h : Surround whole part) (hsame : (part i).answer = (part j).answer) :
    (whole i).answer = (whole j).answer := by
  obtain ⟨_, first, next, hwhole⟩ := h
  simp only [hwhole, answer_bind, hsame]

theorem refused {refusal : Failure} (h : Surround whole part)
    (hrefused : Refused refusal (part i) (part j)) : Refused refusal (whole i) (whole j) := by
  obtain ⟨_, first, next, hwhole⟩ := h
  rw [hwhole, hwhole]
  refine MatchingUnless.bind (.matching (.same first)) ?_
  rintro a _ ⟨rfl, -⟩
  exact hrefused.bind

end Surround

end Outcome

theorem Frame.surround_hold (frame : Frame) (depth : Nat) :
    Surround (fun value => resolve env context depth (frame.hold value))
      (fun value => evaluate env context (frame.placed value)) := by
  obtain ⟨α, first, next, hhold, -⟩ := frame.exists_evaluate_hold env context
  refine ⟨α, first, next, fun value => ?_⟩
  -- A fragment with an open place ends a chain, so it does not matter how long the chain was.
  have hnext : (frame.hold value).next? = none := by cases frame <;> rfl
  have hdepth : resolve env context depth (frame.hold value) =
      evaluate env context (.fragment (frame.hold value)) := by
    rw [evaluate, resolve_of_next_none hnext, resolve_of_next_none hnext]
  exact hdepth.trans (hhold value)

theorem Layer.exists_surround_around (layer : Layer) (depth : Nat) :
    ∃ inner, Surround (fun f => resolve env context depth (layer.around f))
      (resolve env context inner) := by
  cases layer with
  | evaluating frame =>
    have hhold : Surround (fun f => resolve env context depth (frame.hold (.fragment f)))
        (fun f => evaluate env context (frame.placed (.fragment f))) :=
      (frame.surround_hold depth).comp Value.fragment
    simp only [← Frame.fill_eq_hold, Frame.placed_fragment, evaluate] at hhold
    exact ⟨0, hhold⟩
  | deferring label assigned =>
    have henter (f : Fragment) : context.enter (.deferred label (.fragment f) assigned) =
        context.enter (.deferred label .null assigned) := rfl
    refine ⟨depth + 1, ?_⟩
    by_cases hdepth : depth ≥ maxResolutionDepth
    · refine ⟨Unit, (do
        context.enter (.deferred label .null assigned)
        .fail (.resolutionTooDeep maxResolutionDepth)), fun _ => pure, fun f => ?_⟩
      show resolve env context depth (.deferred label (.fragment f) assigned) = _
      rw [resolve, henter]
      simp only [if_pos hdepth, bind_assoc, fail_bind]
    · refine ⟨Unit, context.enter (.deferred label .null assigned), fun _ => pure, fun f => ?_⟩
      show resolve env context depth (.deferred label (.fragment f) assigned) = _
      rw [resolve, henter]
      simp only [if_neg hdepth, bind_pure]

theorem exists_surround_enclose (layers : List Layer) (depth : Nat) :
    ∃ inner, Surround (fun f => resolve env context depth (enclose layers f))
      (resolve env context inner) := by
  induction layers with
  | nil => exact ⟨depth, .refl _⟩
  | cons layer layers ih =>
    obtain ⟨middle, houter⟩ := ih
    obtain ⟨inner, hinner⟩ := layer.exists_surround_around middle
    exact ⟨inner, (houter.comp _).trans hinner⟩

/-- A tree with an open place has what is held there evaluated, and goes on from what it comes to. -/
theorem Frame.surround_enclose (frame : Frame) (layers : List Layer) :
    Surround (fun value => evaluate env context (.fragment (enclose layers (frame.hold value))))
      (fun value => evaluate env context (frame.placed value)) := by
  obtain ⟨inner, houter⟩ := exists_surround_enclose layers 0
  exact (houter.comp fun value => frame.hold value).trans (frame.surround_hold inner)

/-! ## Values that stand for their parameters -/

/-- Whether a plain value in an open place stands for its parameter. Between literal parts all do,
and texts do everywhere. -/
def Frame.Promotes (value : Value) : Frame → Prop
  | template .. => True
  | clause _ | lines .. => ∃ s, value = .text s

theorem Frame.promotes_text (frame : Frame) (s : String) : frame.Promotes (.text s) := by
  cases frame with
  | template => trivial
  | clause | lines => exact ⟨s, rfl⟩

theorem evaluate_plain (hplain : value.isPlain = true) (h : ¬ ∃ s, value = .text s) :
    evaluate env context value = .fail (.showing .notRenderable value) := by
  cases value with
  | null | fragment => cases hplain
  | text s => exact absurd ⟨s, rfl⟩ h
  | _ => rw [evaluate] <;> simp

private theorem Frame.answer_placed_promoted (frame : Frame) (hplain : value.isPlain = true)
    (h : frame.Promotes value) (hcalls : context.Calls) :
    (evaluate env context (frame.placed value)).answer =
      (evaluate env context (frame.placed (.fragment (.parameter value)))).answer := by
  have hpromoted : value.promoted = .fragment (.parameter value) := if_pos hplain
  rw [placed_fragment, ← hpromoted]
  cases frame with
  | template => rfl
  | clause | lines =>
    obtain ⟨s, rfl⟩ := h
    rw [evaluate_promoted, hcalls.answer_promote fun _ => ⟨s, rfl⟩]
    rfl

private theorem Frame.refused_placed (frame : Frame) (hplain : value.isPlain = true)
    (h : ¬ frame.Promotes value) :
    Refused (.showing .notRenderable value)
      (evaluate env context (frame.placed (.fragment (.parameter value))))
      (evaluate env context (frame.placed value)) := by
  cases frame with
  | template => exact absurd trivial h
  | clause | lines =>
    rw [placed, placed, evaluate_plain hplain h]
    exact .refused rfl rfl

/-- Options under which a value is refused where a fragment is expected: by itself it fails for the
cause, and so does a tree with it, unless the tree fails before for another cause. Then it fails for
that one with the parameter of the value as well. -/
structure Options.Refuse (options : Options) (env : Environment) (value : Value)
    (tree : Value → Fragment) (refusal : Failure) : Prop where
  itself : ∀ context, options.normalize = .ok context → options.render env value = .error refusal
  within : options.render env (.fragment (tree value)) = .error refusal ∨
    ∃ cause, options.render env (.fragment (tree value)) = .error cause ∧
      options.render env (.fragment (tree (.fragment (.parameter value)))) = .error cause

/-- A plain value in an open place of a tree comes to what its parameter comes to, the whole tree
with it: any value between literal parts, and a text as the value of a clause or among lines. Any
other plain value is refused there, for being no fragment or for what is in the way of saying so. -/
theorem Options.render_promoted (options : Options) (hplain : value.isPlain = true)
    (frame : Frame) (layers : List Layer) :
    let tree (inner : Value) : Fragment := enclose layers (frame.hold inner)
    (frame.Promotes value →
      options.render env (.fragment (tree value)) =
        options.render env (.fragment (tree (.fragment (.parameter value))))) ∧
    (¬ frame.Promotes value →
      (value.obstacle? = none → options.Refuse env value tree (.notRenderable value)) ∧
      ∀ obstacle, value.obstacle? = some obstacle →
        options.Refuse env value tree (.ofObstacle obstacle)) := by
  intro tree
  cases hnormalize : options.normalize with
  | error cause =>
    have hfails := render_of_normalize_error hnormalize env
    have hrefuse (refusal : Failure) : options.Refuse env value tree refusal := by
      refine ⟨fun context hcontext => ?_, .inr ⟨cause, hfails _, hfails _⟩⟩
      cases hnormalize.symm.trans hcontext
    exact ⟨fun _ => (hfails _).trans (hfails _).symm, fun _ => ⟨fun _ => hrefuse _,
      fun _ _ => hrefuse _⟩⟩
  | ok context =>
    have hsurround : Surround
        (fun inner => SqlFragments.evaluate env context (.fragment (tree inner)))
        (fun inner => SqlFragments.evaluate env context (frame.placed inner)) :=
      frame.surround_enclose layers
    constructor
    · intro h
      simp only [render_of_normalize hnormalize]
      rcases context.calls_or with hcalls | ⟨cause, hrefused⟩
      · exact hsurround.answer_congr (frame.answer_placed_promoted hplain h hcalls)
      · rw [answer_evaluate_of_error (hrefused _), answer_evaluate_of_error (hrefused _)]
    · intro h
      have hnone : ¬ ∃ s, value = .text s := by
        rintro ⟨s, rfl⟩
        exact h (frame.promotes_text s)
      have hrefuse : options.Refuse env value tree (.showing .notRenderable value) := by
        constructor
        · intro _ _
          rw [render_of_normalize hnormalize, evaluate_plain hplain hnone]
          rfl
        · simp only [render_of_normalize hnormalize]
          cases hsurround.refused (frame.refused_placed hplain h) with
          | refused hfails hcause => exact .inl (hcause ▸ hfails)
          | matching hboth =>
            cases hboth with
            | ok _ _ impossible => exact impossible.elim
            | error hparameter hvalue => exact .inr ⟨_, hvalue, hparameter⟩
      refine ⟨fun hshown => ?_, fun obstacle hobstacle => ?_⟩
      · rwa [Failure.showing, hshown] at hrefuse
      · rwa [Failure.showing, hobstacle] at hrefuse

/-- A text and numbers among lines in a clause that another fragment renders to, in a statement. One
of the numbers has too many digits to be shown. -/
theorem Options.render_promoted_lines :
    let options : Options := .mapping 0 [(.text "with_parameters", .value (.bool false))]
    let lines : Frame := .lines [.fragment (.raw (.text "a ="))] [.fragment (.raw .null)] (.text " ")
    let layers : List Layer := [.evaluating (.clause [.text "WHERE", .text ""]), .deferring 4 [],
      .evaluating (.template 1 .statement [.text "  SELECT 1 ", .text ""] [] [])]
    let tree (inner : Value) : Fragment := enclose layers (lines.hold inner)
    let long : Value := .int (10 ^ Number.mostDigits : Nat)
    ((Value.text "it's").isPlain = true ∧ lines.Promotes (.text "it's") ∧
      (Value.int 5).isPlain = true ∧ ¬ lines.Promotes (.int 5) ∧
      (Value.int 5).obstacle? = none ∧ long.isPlain = true ∧ ¬ lines.Promotes long ∧
      long.obstacle? = some .overlong) ∧
    options.render {} (.fragment (tree (.text "it's"))) =
      .ok (.result { sql := .text "SELECT 1 WHERE a = 'it\\'s'" }) ∧
    options.render {} (.fragment (tree (.fragment (.parameter (.int 5))))) =
      .ok (.result { sql := .text "SELECT 1 WHERE a = 5" }) ∧
    options.render {} (.fragment (tree (.int 5))) = .error (.notRenderable (.int 5)) ∧
    options.render {} long = .error .badValue := by
  intro options lines layers tree long
  have htext : lines.Promotes (.text "it's") := ⟨"it's", rfl⟩
  have hfivePlain : (Value.int 5).isPlain = true := rfl
  have hlongPlain : long.isPlain = true := rfl
  have hint (n : Int) : ¬ lines.Promotes (.int n) := by
    rintro ⟨s, hs⟩
    cases hs
  have hlongKept : ¬ lines.Promotes long := hint _
  have hquoted : options.render {} (.fragment (tree (.fragment (.parameter (.text "it's"))))) =
      .ok (.result { sql := .text "SELECT 1 WHERE a = 'it\\'s'" }) := by cbv
  have hfive : options.render {} (.fragment (tree (.fragment (.parameter (.int 5))))) =
      .ok (.result { sql := .text "SELECT 1 WHERE a = 5" }) := by cbv
  have hshown : (Value.int 5).obstacle? = none := by cbv
  have hoverlong : Number.isOverlong (10 ^ Number.mostDigits : Nat) = true :=
    Number.isOverlong_iff.2 le_rfl
  have hlong : long.obstacle? = some .overlong := by
    rw [Value.obstacle?, Int.natAbs_natCast, if_pos hoverlong]
  refine ⟨⟨rfl, htext, hfivePlain, hint 5, hshown, hlongPlain, hlongKept, hlong⟩, ?_, hfive, ?_,
    ?_⟩
  · exact ((render_promoted options rfl lines layers).1 htext).trans hquoted
  · rcases (((render_promoted options hfivePlain lines layers).2 (hint 5)).1 hshown).within with
      hrefused | ⟨cause, -, hcause⟩
    · exact hrefused
    · cases hfive.symm.trans hcause
  · have hrefuse : options.Refuse {} long tree .badValue :=
      ((render_promoted options hlongPlain lines layers).2 hlongKept).2 _ hlong
    exact hrefuse.itself _ rfl

/-- A number is not bound as the value of a clause. -/
theorem Options.render_promoted_ne :
    let clauseOf (value : Value) : Value :=
      .fragment (.clause [.text "WHERE id = ", .text ""] value)
    let parameter : Value := .fragment (.parameter (.int 5))
    (Value.int 5).isPlain = true ∧
    Options.absent.render {} parameter =
      .ok (.result { sql := .text "?", bindings := [.int 5] }) ∧
    Options.absent.render {} (clauseOf parameter) =
      .ok (.result { sql := .text "WHERE id = ?", bindings := [.int 5] }) ∧
    Options.absent.render {} (clauseOf (.int 5)) =
      .error (.notRenderable (.int 5)) := by
  intro clauseOf parameter
  refine ⟨rfl, ?_, ?_, ?_⟩
  · cbv
  · cbv
  · cbv

end SqlFragments
