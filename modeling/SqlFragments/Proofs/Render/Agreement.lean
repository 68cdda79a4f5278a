import Mathlib
import SqlFragments.Proofs.Render.Inlines
import SqlFragments.Proofs.Render.Options

/-!
# Agreement of the two ways to render

A statement with placeholders becomes the statement with literals when each placeholder is
replaced by the literal of its binding. Leaving out empty lines and clauses, trimming and taking
away indentation all look at the text, which differs between the two; they come to the same
because no literal is empty or blank at its ends.
-/

namespace SqlFragments

open Outcome Text

variable {env : Environment} {context : Context}

private theorem inlines_other {v w : Value} :
    Compatible (Rendered.Inlines env context) (pure (.other v)) (pure (.other w)) :=
  .pure trivial

private theorem agree_columnList (depth : Nat) {columns : List Value} {separator : Value}
    (hsep : separator.isUnmarked = true)
    (hnames : ∀ column ∈ columns, ∀ written,
      (context.escapeId.write env column).answer = .ok written → written.isUnmarked = true) :
    Compatible (Rendered.Inlines env context)
      (resolve env context depth (.columnList columns separator))
      (resolve env context.withLiterals depth (.columnList columns separator)) := by
  rw [resolve, resolve]
  refine Compatible.bind (inlines_enter _) ?_
  intro _ _ _
  refine Compatible.bind (.same _) ?_
  intro _ _ _
  refine Compatible.bind (.same _) ?_
  rintro pieces _ ⟨rfl, hpieces⟩
  refine Compatible.bind (.same _) ?_
  rintro sql _ ⟨rfl, hsql⟩
  have hunmarked := unmarked_joinWith hsep (unmarked_mapM hnames hpieces) hsql
  obtain ⟨s, rfl, hs⟩ := Value.isUnmarked_iff.1 hunmarked
  exact inlines_result (inlines_unmarked rfl rfl rfl hs)

mutual

theorem agree_resolve (htight : context.WritesTight env) (hparam : context.withParameters = true)
    (depth : Nat) (f : Fragment) (hwording : ∀ part ∈ f.wording, part.isUnmarked = true)
    (hleaves : ∀ leaf ∈ f.leaves, leaf.Unmarked env context) :
    Compatible (Rendered.Inlines env context) (resolve env context depth f)
      (resolve env context.withLiterals depth f) := by
  match f with
  | .raw value =>
    rw [resolve_raw, resolve_raw]
    refine Compatible.bind (inlines_enter _) ?_
    intro _ _ _
    refine Compatible.bind (.same _) ?_
    rintro text _ ⟨rfl, htext⟩
    exact inlines_result (inlines_unmarked rfl rfl rfl (hleaves _ List.mem_cons_self text htext))
  | .identifier name =>
    rw [resolve, resolve]
    refine Compatible.bind (inlines_enter _) ?_
    intro _ _ _
    refine Compatible.bind (.same _) ?_
    rintro sql _ ⟨rfl, hsql⟩
    obtain ⟨s, rfl, hs⟩ := Value.isUnmarked_iff.1 (hleaves _ List.mem_cons_self sql hsql)
    exact inlines_result (inlines_unmarked rfl rfl rfl hs)
  | .parameter value =>
    rw [resolve, resolve]
    refine Compatible.bind (inlines_parameter htight value hparam) ?_
    intro p i h
    exact inlines_result h
  | .parameterList values separator =>
    rw [resolve_parameterList, resolve_parameterList]
    refine Compatible.bind (inlines_enter _) ?_
    intro _ _ _
    have hsep := hwording separator List.mem_cons_self
    refine Compatible.bind (inlines_renderList htight hparam hsep values) ?_
    intro p i h
    exact inlines_result h
  | .columnList columns separator =>
    have hnames : ∀ column ∈ columns, ∀ written,
        (context.escapeId.write env column).answer = .ok written → written.isUnmarked = true :=
      fun column hcolumn => hleaves (.name column) (List.mem_map_of_mem hcolumn)
    exact agree_columnList depth (hwording separator List.mem_cons_self) hnames
  | .lines members separator =>
    rw [resolve, resolve]
    refine Compatible.bind (inlines_enter _) ?_
    intro _ _ _
    rw [Fragment.wording, List.forall_mem_cons] at hwording
    have hstart : Filled "".toList (([] : List String).map String.toList) "".toList := .nil
    refine Compatible.bind
      (agree_linesFrom htight hparam members hwording.2 hleaves hwording.1 .nil hstart []) ?_
    intro p i h
    exact inlines_result h
  | .clause strings value =>
    rw [resolve_clause, resolve_clause]
    refine Compatible.bind (inlines_enter _) ?_
    intro _ _ _
    rw [Fragment.wording, List.forall_mem_append] at hwording
    refine Compatible.bind (agree_evaluate htight hparam value hwording.2 hleaves) ?_
    intro r s h
    refine Compatible.bind (inlines_expect h) ?_
    intro p i h
    refine Compatible.bind (inlines_surround hwording.1 h) ?_
    intro p i h
    exact inlines_result h
  | .template label form strings values =>
    rw [resolve, resolve]
    refine Compatible.bind (inlines_enter _) ?_
    intro _ _ _
    rw [Fragment.wording, List.forall_mem_append] at hwording
    refine Compatible.bind (agree_promotedEach htight hparam values hwording.2 hleaves) ?_
    intro rs is h
    refine Compatible.bind (inlines_compose hwording.1 h) ?_
    intro p i h
    exact inlines_result h
  | .deferred label target assigned =>
    rw [resolve_deferred, resolve_deferred]
    refine Compatible.bind (inlines_enter _) ?_
    intro _ _ _
    match target with
    | .fragment f =>
      rw [follow, follow]
      split
      · intro _ _ h
        cases h
      · exact agree_resolve htight hparam (depth + 1) f hwording hleaves
    | .null | .bool _ | .int _ | .float _ _ | .decimal _ _ | .text _ | .dateTime _ | .date _
    | .bytes _ _ | .list _ _ | .tuple _ | .dict _ _ | .object _ _ | .function _ =>
      exact inlines_other
  | .leaf _ _ _ _ _ | .probe _ _ | .endless _ _ | .unrenderable _ _ _ =>
    exact (hleaves _ List.mem_cons_self).elim
termination_by structural f

theorem agree_evaluate (htight : context.WritesTight env) (hparam : context.withParameters = true)
    (target : Value) (hwording : ∀ part ∈ target.wording, part.isUnmarked = true)
    (hleaves : ∀ leaf ∈ target.leaves, leaf.Unmarked env context) :
    Compatible (Rendered.Inlines env context) (evaluate env context target)
      (evaluate env context.withLiterals target) := by
  match target with
  | .null => exact inlines_result (inlines_unmarked rfl rfl rfl (by decide))
  | .text s =>
    rw [evaluate, evaluate, if_pos hparam, if_neg (by exact Bool.false_ne_true)]
    split
    · have hbind := inlines_bind htight (.text s) hparam
      simp only [json] at hbind
      have hmark : (pure (.result { sql := .text "?", bindings := [.text s] }) : Outcome Rendered) =
          (do
            let result ← context.bind env (.text s) fun _ => pure (.text s)
            pure (.result result)) := by
        rw [Context.bind, if_pos hparam, pure_bind]
      rw [hmark]
      refine Compatible.bind hbind ?_
      intro p i h
      exact inlines_result h
    · intro _ _ _ h
      cases h
  | .fragment f =>
    rw [evaluate, evaluate]
    exact agree_resolve htight hparam 0 f hwording hleaves
  | .bool _ | .int _ | .float _ _ | .decimal _ _ | .dateTime _ | .date _ | .bytes _ _ | .list _ _
  | .tuple _ | .dict _ _ | .object _ _ | .function _ =>
    intro _ _ h
    cases h
termination_by structural target

theorem agree_promotedEach (htight : context.WritesTight env)
    (hparam : context.withParameters = true) (values : List Value)
    (hwording : ∀ part ∈ Value.wordingEach values, part.isUnmarked = true)
    (hleaves : ∀ leaf ∈ Value.promotedLeaves values, leaf.Unmarked env context) :
    Compatible (List.Forall₂ (Rendered.Inlines env context)) (promotedEach env context values)
      (promotedEach env context.withLiterals values) := by
  match values with
  | [] => exact .pure .nil
  | value :: rest =>
    rw [Value.wordingEach, List.forall_mem_append] at hwording
    rw [Value.promotedLeaves, List.forall_mem_append] at hleaves
    rw [promotedEach_cons, promotedEach_cons]
    have hfirst : Compatible (Rendered.Inlines env context) (promote env context value)
        (promote env context.withLiterals value) := by
      unfold promote
      by_cases hplain : value.isPlain = true
      · rw [if_pos hplain, if_pos hplain]
        refine Compatible.bind (inlines_parameter htight value hparam) ?_
        intro p i h
        exact inlines_result h
      · rw [if_neg hplain] at hleaves
        rw [if_neg hplain, if_neg hplain]
        exact agree_evaluate htight hparam value hwording.1 hleaves.1
    refine Compatible.bind hfirst ?_
    intro r i hr
    refine Compatible.bind (agree_promotedEach htight hparam rest hwording.2 hleaves.2) ?_
    intro rs is hrs
    exact .pure (.cons hr hrs)
termination_by structural values

theorem agree_linesFrom (htight : context.WritesTight env) (hparam : context.withParameters = true)
    (members : List Value) (hwording : ∀ part ∈ Value.wordingEach members, part.isUnmarked = true)
    (hleaves : ∀ leaf ∈ Value.leavesEach members, leaf.Unmarked env context) {separator : Value}
    (hsep : separator.isUnmarked = true) {done : List Value} {literals : List String}
    {s t : String} (hdone : AreWritten env context done literals)
    (hlines : Filled s.toList (literals.map String.toList) t.toList) (others : List Value) :
    Compatible (Result.Inlines env context) (linesFrom env context separator (.text s) done members)
      (linesFrom env context.withLiterals separator (.text t) others members) := by
  match members with
  | [] => exact .pure ⟨literals, s, t, hdone, rfl, rfl, hlines⟩
  | member :: rest =>
    rw [Value.wordingEach, List.forall_mem_append] at hwording
    rw [Value.leavesEach, List.forall_mem_append] at hleaves
    rw [linesFrom_cons, linesFrom_cons]
    refine Compatible.bind (agree_evaluate htight hparam member hwording.1 hleaves.1) ?_
    intro r i hr
    refine Compatible.bind (inlines_expect hr) ?_
    rintro p i ⟨more, x, y, hmore, hp, hi, hline⟩
    rw [hp, hi]
    refine Compatible.bind (inlines_lengthen hsep rest.isEmpty hdone hmore hlines hline) ?_
    rintro _ _ ⟨literals', s', t', hdone', ha, hb, hlines'⟩
    cases ha
    cases hb
    exact agree_linesFrom htight hparam rest hwording.2 hleaves.2 hsep hdone' hlines' _
termination_by structural members

end

/-- The statement with literals is the statement with placeholders where each placeholder is
replaced by the literal of its binding, all at once; there is one placeholder for each binding.
Nothing that is written of its own has a mark in it, and the literals are those of the library or
are tight. -/
theorem Options.render_inlined_eq_fill {options : Options} {fields : Entries Setting}
    (hfields : options.fields = .ok fields)
    (hparam : fields.get? withParametersKey ≠ some (.value (.bool false))) {target : Value}
    (hwording : ∀ part ∈ target.wording, part.isUnmarked = true)
    (hleaves : ∀ leaf ∈ target.leaves, leaf.Unmarked env (.ofFields fields))
    (hescape : (Context.ofFields fields).escape = .standard ∨
      (Context.ofFields fields).WritesTight env) {p i : Result}
    (hp : options.render env target = .ok (.result p))
    (hi : (mapping 0 (inlinedFields fields)).render env target = .ok (.result i)) :
    ∃ (literals : List String) (s t : String),
      List.Forall₂ ((Context.ofFields fields).WritesAs env) p.bindings literals ∧
      p.sql = .text s ∧ s.toList.count '?' = p.bindings.length ∧
      i.sql = .text t ∧ t.toList = fill s.toList (literals.map String.toList) := by
  have htight : (Context.ofFields fields).WritesTight env := by
    rcases hescape with hstandard | htight
    · exact Context.writesTight_of_standard hstandard
    · exact htight
  rw [render_of_fields hfields] at hp
  rw [render_of_fields rfl, Context.ofFields_inlinedFields] at hi
  have hagree := agree_evaluate htight ((Context.withParameters_ofFields fields).2 hparam) target
    hwording hleaves (.result p) (.result i) hp hi
  obtain ⟨literals, s, t, hwritten, hs, ht, hfilled⟩ := hagree
  refine ⟨literals, s, t, hwritten.1, hs, ?_, ht, hfilled.fill_eq.symm⟩
  rw [hfilled.count, List.length_map, hwritten.1.length_eq]

theorem Options.render_inlined_eq_fill_select :
    ∃ (literals : List String) (s t : String),
      List.Forall₂ (Context.WritesAs {} (.ofFields [])) [.text "it's"] literals ∧
      Value.text "SELECT \"a\" WHERE\nb = ?" = .text s ∧ s.toList.count '?' = 1 ∧
      Value.text "SELECT \"a\" WHERE\nb = 'it\\'s'" = .text t ∧
      t.toList = fill s.toList (literals.map String.toList) := by
  let target : Value := .fragment (.template 0 .statement
    [.text "  SELECT ", .text " WHERE\n  b = ", .text " "]
    [.fragment (.identifier "a"), .text "it's"])
  have hfields : Options.absent.fields = .ok [] := rfl
  have hparam : Entries.get? ([] : Entries Setting) withParametersKey ≠
      some (.value (.bool false)) := nofun
  have hwording : ∀ part ∈ target.wording, part.isUnmarked = true := by decide
  have hleaves : ∀ leaf ∈ target.leaves, leaf.Unmarked {} (.ofFields []) := by
    have hlist : target.leaves = [.name (.text "a"), .bound (.text "it's")] := rfl
    rw [hlist, List.forall_mem_cons, List.forall_mem_singleton]
    refine ⟨?_, trivial⟩
    intro written h
    cases h
    decide
  have hp : Options.absent.render {} target = .ok (.result
      { sql := .text "SELECT \"a\" WHERE\nb = ?", bindings := [.text "it's"] }) := by cbv
  have hi : (Options.mapping 0 (inlinedFields [])).render {} target = .ok (.result
      { sql := .text "SELECT \"a\" WHERE\nb = 'it\\'s'" }) := by cbv
  exact render_inlined_eq_fill hfields hparam hwording hleaves (.inl rfl) hp hi

end SqlFragments
