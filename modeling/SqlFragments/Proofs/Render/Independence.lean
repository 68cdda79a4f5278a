import Mathlib
import SqlFragments.Proofs.Render.Compose
import SqlFragments.Proofs.Render.Options
import SqlFragments.Proofs.Render.Steps

/-!
# Independence of bound values

Two trees of one shape that differ only in the values they bind render to the same text with
placeholders, whatever the values are. Their bindings are the values that stand at the same
places.
-/

namespace SqlFragments

open Outcome

variable {env : Environment} {context : Context}

/-! ## Trees of one shape -/

mutual

/-- Two fragments of one shape, with the pairs of values that they bind at the same places, from
left to right. Two templates of one wording may be two things. -/
inductive Fragment.Paired : Fragment → Fragment → List (Value × Value) → Prop
  | raw (value : Value) : Fragment.Paired (.raw value) (.raw value) []
  | identifier (name : String) : Fragment.Paired (.identifier name) (.identifier name) []
  | parameter (v w : Value) : Fragment.Paired (.parameter v) (.parameter w) [(v, w)]
  | parameterList (pairs : List (Value × Value)) (separator : Value) :
    Fragment.Paired (.parameterList (pairs.map (·.1)) separator)
      (.parameterList (pairs.map (·.2)) separator) pairs
  | columnList (columns : List Value) (separator : Value) :
    Fragment.Paired (.columnList columns separator) (.columnList columns separator) []
  | lines {vs ws : List Value} {pairs : List (Value × Value)} (separator : Value)
    (members : Value.PairedEach vs ws pairs) :
    Fragment.Paired (.lines vs separator) (.lines ws separator) pairs
  | clause {v w : Value} {pairs : List (Value × Value)} (strings : List Value)
    (value : Value.Paired v w pairs) :
    Fragment.Paired (.clause strings v) (.clause strings w) pairs
  | template {vs ws : List Value} {pairs : List (Value × Value)} (label label' : Label)
    (form : TemplateForm) (strings : List Value) (values : Value.PromotedPaired vs ws pairs) :
    Fragment.Paired (.template label form strings vs) (.template label' form strings ws) pairs

/-- Two things of one shape that are rendered by themselves. Of the values among them only texts
are bound. -/
inductive Value.Paired : Value → Value → List (Value × Value) → Prop
  | null : Value.Paired .null .null []
  | text (s t : String) : Value.Paired (.text s) (.text t) [(.text s, .text t)]
  | unbound (value : Value) (hplain : value.isPlain = true) (htext : value.text? = none) :
    Value.Paired value value []
  | fragment {f g : Fragment} {pairs : List (Value × Value)}
    (fragments : Fragment.Paired f g pairs) :
    Value.Paired (.fragment f) (.fragment g) pairs

inductive Value.PairedEach : List Value → List Value → List (Value × Value) → Prop
  | nil : Value.PairedEach [] [] []
  | cons {v w : Value} {vs ws : List Value} {first others : List (Value × Value)}
    (head : Value.Paired v w first) (tail : Value.PairedEach vs ws others) :
    Value.PairedEach (v :: vs) (w :: ws) (first ++ others)

/-- The values of templates, one by one of one shape; any two plain ones are. -/
inductive Value.PromotedPaired : List Value → List Value → List (Value × Value) → Prop
  | nil : Value.PromotedPaired [] [] []
  | null {vs ws : List Value} {others : List (Value × Value)}
    (tail : Value.PromotedPaired vs ws others) :
    Value.PromotedPaired (.null :: vs) (.null :: ws) others
  | plain {v w : Value} {vs ws : List Value} {others : List (Value × Value)}
    (hv : v.isPlain = true) (hw : w.isPlain = true) (tail : Value.PromotedPaired vs ws others) :
    Value.PromotedPaired (v :: vs) (w :: ws) ((v, w) :: others)
  | fragment {f g : Fragment} {vs ws : List Value} {first others : List (Value × Value)}
    (head : Fragment.Paired f g first) (tail : Value.PromotedPaired vs ws others) :
    Value.PromotedPaired (.fragment f :: vs) (.fragment g :: ws) (first ++ others)

end

/-! ## Results that differ in their bindings -/

/-- Two results that are the same but for their bindings, which are the sides of some pairs. -/
structure Result.Twin (pairs : List (Value × Value)) (p q : Result) : Prop where
  sql : p.sql = q.sql
  method : p.method = q.method
  hooks : p.hooks = q.hooks
  left : p.bindings = pairs.map (·.1)
  right : q.bindings = pairs.map (·.2)

def Rendered.Twin (pairs : List (Value × Value)) (r s : Rendered) : Prop :=
  ∃ p q, r = .result p ∧ s = .result q ∧ p.Twin pairs q

structure Rendered.TwinEach (pairs : List (Value × Value)) (rs ss : List Rendered) : Prop where
  texts : (rs.map Rendered.toResult).map (Except.map Result.sql) =
    (ss.map Rendered.toResult).map (Except.map Result.sql)
  left : boundValues (rs.map Rendered.toResult) = pairs.map (·.1)
  right : boundValues (ss.map Rendered.toResult) = pairs.map (·.2)

theorem Rendered.Twin.cons {first others : List (Value × Value)} {r s : Rendered}
    {rs ss : List Rendered} (head : r.Twin first s) (tail : Rendered.TwinEach others rs ss) :
    Rendered.TwinEach (first ++ others) (r :: rs) (s :: ss) := by
  obtain ⟨p, q, rfl, rfl, twin⟩ := head
  refine ⟨?_, ?_, ?_⟩
  · simp only [List.map_cons, Rendered.toResult, Except.map, twin.sql, tail.texts]
  · rw [List.map_append, ← twin.left, ← tail.left]
    rfl
  · rw [List.map_append, ← twin.right, ← tail.right]
    rfl

private theorem matching_pure_result {pairs : List (Value × Value)} {p q : Result}
    (twin : p.Twin pairs q) :
    Matching (Rendered.Twin pairs) (pure (.result p)) (pure (.result q)) :=
  .pure ⟨p, q, rfl, rfl, twin⟩

private theorem matching_expect {pairs : List (Value × Value)} {r s : Rendered}
    (twin : r.Twin pairs s) : Matching (Result.Twin pairs) r.expect s.expect := by
  obtain ⟨p, q, rfl, rfl, twin⟩ := twin
  exact .pure twin

private theorem matching_compose {pairs : List (Value × Value)} {rs ss : List Rendered}
    (strings : List Value) (twins : Rendered.TwinEach pairs rs ss) :
    Matching (Result.Twin pairs)
      (ofExcept (compose strings (rs.map Rendered.toResult) context))
      (ofExcept (compose strings (ss.map Rendered.toResult) context)) := by
  rw [compose_eq_map, compose_eq_map, composedText_congr strings twins.texts]
  cases composedText strings (ss.map Rendered.toResult) with
  | error cause => exact .error rfl rfl
  | ok text => exact .pure ⟨rfl, rfl, rfl, twins.left, twins.right⟩

private theorem matching_surround {pairs : List (Value × Value)} {p q : Result}
    (strings : List Value) (twin : p.Twin pairs q) :
    Matching (Result.Twin pairs) (ofExcept (surround context strings p))
      (ofExcept (surround context strings q)) := by
  unfold surround
  rw [twin.sql]
  split
  · have hnil : Rendered.TwinEach [] [] [] := ⟨rfl, rfl, rfl⟩
    have hone := Rendered.Twin.cons ⟨p, q, rfl, rfl, twin⟩ hnil
    rw [List.append_nil] at hone
    exact matching_compose strings hone
  · exact .pure ⟨rfl, rfl, rfl, twin.left, twin.right⟩

private theorem matching_promotedEach_cons {v w : Value} {vs ws : List Value}
    {first others : List (Value × Value)}
    (head : Matching (Rendered.Twin first) (promote env context v) (promote env context w))
    (tail : Matching (Rendered.TwinEach others) (promotedEach env context vs)
      (promotedEach env context ws)) :
    Matching (Rendered.TwinEach (first ++ others)) (promotedEach env context (v :: vs))
      (promotedEach env context (w :: ws)) := by
  rw [promotedEach_cons, promotedEach_cons]
  apply Matching.bind head
  intro r s twin
  apply Matching.bind tail
  intro rs ss twins
  exact .pure (twin.cons twins)

/-! ## Two renders side by side -/

private theorem matching_parameter (hparam : context.withParameters = true) (v w : Value)
    (json json' : Unit → Outcome Json) :
    Matching (Result.Twin [(v, w)]) (context.parameter env v json)
      (context.parameter env w json') := by
  unfold Context.parameter Context.bind
  rw [if_pos hparam, if_pos hparam]
  apply Matching.bind (matching_enter (by rfl))
  intro _ _ _
  exact .pure ⟨rfl, rfl, rfl, rfl, rfl⟩

private theorem matching_renderList (hparam : context.withParameters = true)
    (pairs : List (Value × Value)) (separator : Value) :
    Matching (Result.Twin pairs) (renderList env context separator (pairs.map (·.1)))
      (renderList env context separator (pairs.map (·.2))) := by
  unfold renderList
  rw [if_pos hparam, if_pos hparam, List.map_map, List.map_map]
  apply Matching.bind (.of_answer_eq rfl)
  rintro sql _ rfl
  exact .pure ⟨rfl, rfl, rfl, rfl, rfl⟩

private theorem matching_promote (hparam : context.withParameters = true) (v w : Value)
    (hv : v.isPlain = true) (hw : w.isPlain = true) :
    Matching (Rendered.Twin [(v, w)]) (promote env context v) (promote env context w) := by
  unfold promote
  rw [if_pos hv, if_pos hw]
  apply Matching.bind (matching_parameter hparam v w _ _)
  intro p q twin
  exact matching_pure_result twin

mutual

theorem Fragment.Paired.matching {f g : Fragment} {pairs : List (Value × Value)}
    (paired : Fragment.Paired f g pairs) (hparam : context.withParameters = true) (depth : Nat) :
    Matching (Rendered.Twin pairs) (resolve env context depth f) (resolve env context depth g) := by
  match paired with
  | .raw value =>
    rw [resolve_raw]
    apply Matching.bind (matching_enter rfl)
    intro _ _ _
    apply Matching.bind (.of_answer_eq rfl)
    rintro text _ rfl
    exact matching_pure_result ⟨rfl, rfl, rfl, rfl, rfl⟩
  | .identifier name =>
    rw [resolve]
    apply Matching.bind (matching_enter rfl)
    intro _ _ _
    apply Matching.bind (.of_answer_eq rfl)
    rintro sql _ rfl
    exact matching_pure_result ⟨rfl, rfl, rfl, rfl, rfl⟩
  | .parameter v w =>
    rw [resolve, resolve]
    apply Matching.bind (matching_parameter hparam v w _ _)
    intro p q twin
    exact matching_pure_result twin
  | .parameterList pairs separator =>
    rw [resolve_parameterList, resolve_parameterList]
    apply Matching.bind (matching_enter (by rfl))
    intro _ _ _
    apply Matching.bind (matching_renderList hparam pairs separator)
    intro p q twin
    exact matching_pure_result twin
  | .columnList columns separator =>
    rw [resolve]
    apply Matching.bind (matching_enter rfl)
    intro _ _ _
    apply Matching.bind (.of_answer_eq rfl)
    intro _ _ _
    apply Matching.bind (.of_answer_eq rfl)
    rintro pieces _ rfl
    apply Matching.bind (.of_answer_eq rfl)
    rintro sql _ rfl
    exact matching_pure_result ⟨rfl, rfl, rfl, rfl, rfl⟩
  | .lines separator members =>
    rw [resolve, resolve]
    apply Matching.bind (matching_enter (by rfl))
    intro _ _ _
    apply Matching.bind (members.matching hparam separator (.text "") [])
    intro p q twin
    exact matching_pure_result twin
  | .clause strings value =>
    rw [resolve_clause, resolve_clause]
    apply Matching.bind (matching_enter (by rfl))
    intro _ _ _
    apply Matching.bind (value.matching hparam)
    intro r s twin
    apply Matching.bind (matching_expect twin)
    intro p q twin
    apply Matching.bind (matching_surround strings twin)
    intro p q twin
    exact matching_pure_result twin
  | .template label label' form strings values =>
    rw [resolve, resolve]
    apply Matching.bind (matching_enter (by cases form <;> rfl))
    intro _ _ _
    apply Matching.bind (values.matching hparam)
    intro rs ss twins
    apply Matching.bind (matching_compose strings twins)
    intro p q twin
    exact matching_pure_result twin
termination_by structural paired

theorem Value.Paired.matching {v w : Value} {pairs : List (Value × Value)}
    (paired : Value.Paired v w pairs) (hparam : context.withParameters = true) :
    Matching (Rendered.Twin pairs) (evaluate env context v) (evaluate env context w) := by
  match paired with
  | .null => exact matching_pure_result ⟨rfl, rfl, rfl, rfl, rfl⟩
  | .text s t =>
    rw [evaluate, evaluate, if_pos hparam, if_pos hparam]
    exact matching_pure_result ⟨rfl, rfl, rfl, rfl, rfl⟩
  | .unbound value hplain htext =>
    cases value with
    | null => cases hplain
    | fragment f => cases hplain
    | text s => cases htext
    | _ => exact .error rfl rfl
  | .fragment fragments =>
    rw [evaluate, evaluate]
    exact fragments.matching hparam 0
termination_by structural paired

theorem Value.PairedEach.matching {vs ws : List Value} {pairs : List (Value × Value)}
    (paired : Value.PairedEach vs ws pairs) (hparam : context.withParameters = true)
    (separator sql : Value) (done : List (Value × Value)) :
    Matching (Result.Twin (done ++ pairs))
      (linesFrom env context separator sql (done.map (·.1)) vs)
      (linesFrom env context separator sql (done.map (·.2)) ws) := by
  match paired with
  | .nil =>
    rw [List.append_nil]
    exact .pure ⟨rfl, rfl, rfl, rfl, rfl⟩
  | @Value.PairedEach.cons v w vs ws first others head tail =>
    rw [linesFrom_cons, linesFrom_cons]
    apply Matching.bind (head.matching hparam)
    intro r s twin
    apply Matching.bind (matching_expect twin)
    intro p q twin
    rw [twin.sql, twin.left, twin.right, ← List.map_append, ← List.map_append,
      ← List.append_assoc]
    have hlast : vs.isEmpty = ws.isEmpty := by
      cases tail <;> rfl
    rw [hlast]
    apply Matching.bind (.of_answer_eq rfl)
    rintro extended _ rfl
    exact tail.matching hparam separator extended (done ++ first)
termination_by structural paired

theorem Value.PromotedPaired.matching {vs ws : List Value} {pairs : List (Value × Value)}
    (paired : Value.PromotedPaired vs ws pairs) (hparam : context.withParameters = true) :
    Matching (Rendered.TwinEach pairs) (promotedEach env context vs)
      (promotedEach env context ws) := by
  match paired with
  | .nil => exact .pure ⟨rfl, rfl, rfl⟩
  | .null tail =>
    have hhead : Matching (Rendered.Twin []) (promote env context .null)
        (promote env context .null) := matching_pure_result ⟨rfl, rfl, rfl, rfl, rfl⟩
    exact matching_promotedEach_cons hhead (tail.matching hparam)
  | @Value.PromotedPaired.plain v w _ _ _ hv hw tail =>
    exact matching_promotedEach_cons (matching_promote hparam v w hv hw) (tail.matching hparam)
  | @Value.PromotedPaired.fragment f g _ _ _ _ head tail =>
    have hhead : Matching _ (promote env context (.fragment f))
        (promote env context (.fragment g)) := head.matching hparam 0
    exact matching_promotedEach_cons hhead (tail.matching hparam)
termination_by structural paired

end

/-- Two things of one shape render alike under any options that leave placeholders on: to one text
with one tag and each its own values bound at the same places, or not at all for one cause. -/
theorem Options.render_independent {options : Options}
    (hparam : ∀ fields, options.fields = .ok fields →
      fields.get? withParametersKey ≠ some (.value (.bool false)))
    {v w : Value} {pairs : List (Value × Value)} (hpaired : Value.Paired v w pairs) :
    (∃ p q, options.render env v = .ok (.result p) ∧ options.render env w = .ok (.result q) ∧
      p.sql = q.sql ∧ p.method = q.method ∧
      p.bindings = pairs.map (·.1) ∧ q.bindings = pairs.map (·.2)) ∨
    ∃ cause, options.render env v = .error cause ∧ options.render env w = .error cause := by
  cases hfields : options.fields with
  | error cause =>
    right
    refine ⟨cause, ?_, ?_⟩ <;> rw [render, normalize, hfields] <;> rfl
  | ok fields =>
    rw [render_of_fields hfields, render_of_fields hfields]
    have hon := (Context.withParameters_ofFields fields).2 (hparam fields hfields)
    cases hpaired.matching hon with
    | ok hv hw twin =>
      obtain ⟨p, q, rfl, rfl, twin⟩ := twin
      exact .inl ⟨p, q, hv, hw, twin.sql, twin.method, twin.left, twin.right⟩
    | error hv hw => exact .inr ⟨_, hv, hw⟩

/-- A number and a text that would end a statement, in one and the same statement. -/
theorem Options.render_independent_select :
    let statement (label : Label) (value : Value) : Value :=
      .fragment (.template label .statement [.text "SELECT ", .text ""] [value])
    let pairs : List (Value × Value) := [(.int 0, .text "'; --")]
    ((∀ fields, Options.absent.fields = .ok fields →
      fields.get? withParametersKey ≠ some (.value (.bool false))) ∧
      Value.Paired (statement 0 (.int 0)) (statement 1 (.text "'; --")) pairs) ∧
    ∃ p q : Result, Options.absent.render {} (statement 0 (.int 0)) = .ok (.result p) ∧
      Options.absent.render {} (statement 1 (.text "'; --")) = .ok (.result q) ∧
      p.sql = .text "SELECT ?" ∧ q.sql = .text "SELECT ?" ∧ p.method = q.method ∧
      p.bindings = [.int 0] ∧ q.bindings = [.text "'; --"] := by
  intro statement pairs
  have hparam : ∀ fields, Options.absent.fields = .ok fields →
      fields.get? withParametersKey ≠ some (.value (.bool false)) := by
    intro fields h
    cases h
    exact nofun
  have hpaired : Value.Paired (statement 0 (.int 0)) (statement 1 (.text "'; --")) pairs :=
    .fragment (.template 0 1 .statement _ (.plain rfl rfl .nil))
  have hrender : Options.absent.render {} (statement 0 (.int 0)) =
      .ok (.result { sql := .text "SELECT ?", bindings := [.int 0] }) := by cbv
  refine ⟨⟨hparam, hpaired⟩, ?_⟩
  rcases render_independent hparam hpaired with
    ⟨p, q, hp, hq, hsql, hmethod, hleft, hright⟩ | ⟨cause, hfails, -⟩
  · cases hrender.symm.trans hp
    exact ⟨_, q, hp, hq, rfl, hsql.symm, hmethod, hleft, hright⟩
  · cases hrender.symm.trans hfails

end SqlFragments
