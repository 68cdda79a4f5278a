import Mathlib
import SqlFragments.Proofs.Literal.Scan
import SqlFragments.Proofs.Render.Agreement
import SqlFragments.Proofs.Render.Bindings

/-!
# Statements read back

A statement of texts that is written with literals is read back as what it was made of: a literal
for each text that the statement with placeholders binds, in order, and around them that statement
without its placeholders. No text can end its literal early, whatever characters it holds.
-/

namespace SqlFragments

open Outcome Text Literal

variable {env : Environment} {context : Context}

/-- A leaf that binds nothing but texts, and writes neither marks nor apostrophes of its own. -/
def Leaf.Readable (env : Environment) (context : Context) : Leaf → Prop
  | null => True
  | bound value => ∃ s, value = .text s
  | verbatim value => ∀ s, (verbatimText env value).answer = .ok s →
    '?' ∉ s.toList ∧ '\'' ∉ s.toList
  | name value => ∀ written, (context.escapeId.write env value).answer = .ok written →
    written.isWithout '?' = true ∧ written.isWithout '\'' = true
  | custom _ => False

theorem Leaf.Readable.unmarked {leaf : Leaf} (h : leaf.Readable env context) :
    leaf.Unmarked env context := by
  cases leaf with
  | null => trivial
  | bound value => trivial
  | verbatim value => exact fun s hs => (h s hs).1
  | name value =>
    intro written hwritten
    rw [Value.isUnmarked_eq]
    exact (h written hwritten).1
  | custom f => exact h.elim

private theorem unmarked_wording {wording : List Value}
    (h : ∀ part ∈ wording, part.isWithout '?' = true ∧ part.isWithout '\'' = true) :
    ∀ part ∈ wording, part.isUnmarked = true := by
  intro part hpart
  rw [Value.isUnmarked_eq]
  exact (h part hpart).1

private theorem exists_map_text {values : List Value} (h : ∀ value ∈ values, ∃ s, value = .text s) :
    ∃ texts : List String, values = texts.map .text := by
  induction values with
  | nil => exact ⟨[], rfl⟩
  | cons value values ih =>
    rw [List.forall_mem_cons] at h
    obtain ⟨s, rfl⟩ := h.1
    obtain ⟨texts, rfl⟩ := ih h.2
    exact ⟨s :: texts, rfl⟩

/-! ## Renders that succeed together -/

/-- The results of two renders, of which the first has a text without apostrophes and the second
any text. -/
structure Result.Bare (p i : Result) : Prop where
  left : p.sql.isWithout '\'' = true
  right : ∃ t, i.sql = .text t

def Rendered.Bare : Rendered → Rendered → Prop
  | result p, result i => p.Bare i
  | other _, other _ => True
  | _, _ => False

private theorem bare_of_sql_eq {p i : Result} (h : p.sql = i.sql)
    (hp : p.sql.isWithout '\'' = true) : p.Bare i := by
  obtain ⟨s, hs, _⟩ := Value.isWithout_iff.1 hp
  exact ⟨hp, s, h ▸ hs⟩

private theorem bare_enter (f : Fragment) :
    Matching Eq (context.enter f) (context.withLiterals.enter f) := by
  apply Matching.of_answer_eq
  rw [answer_enter, answer_enter]
  rfl

private theorem bare_result {p i : Result} (h : p.Bare i) :
    Matching Rendered.Bare (pure (.result p)) (pure (.result i)) :=
  .pure h

private theorem bare_expect {r s : Rendered} (h : r.Bare s) :
    Matching Result.Bare r.expect s.expect := by
  cases r with
  | result p =>
    cases s with
    | result i => exact .pure h
    | other w => exact h.elim
  | other v =>
    cases s with
    | result i => exact h.elim
    | other w => exact .error rfl rfl

private theorem bare_bind (hescape : context.escape = .standard)
    (hparam : context.withParameters = true) (s : String) (json : Unit → Outcome Json) :
    Matching Result.Bare (context.bind env (.text s) json)
      (context.withLiterals.bind env (.text s) json) := by
  have hliteral : context.withLiterals.escape.write env (.text s) context.timezone json =
      pure (.text (quote s)) := by
    rw [Context.withLiterals, hescape]
    rfl
  unfold Context.bind
  rw [if_pos hparam, if_neg (by exact Bool.false_ne_true)]
  have hwritten : (do
      let sql ← context.withLiterals.escape.write env (.text s) context.withLiterals.timezone json
      pure { sql := sql } : Outcome Result) = pure { sql := .text (quote s) } := by
    show (do
      let sql ← context.withLiterals.escape.write env (.text s) context.timezone json
      pure { sql := sql } : Outcome Result) = _
    rw [hliteral, pure_bind]
  rw [hwritten]
  exact .pure ⟨rfl, _, rfl⟩

private theorem bare_parameter (hescape : context.escape = .standard)
    (hparam : context.withParameters = true) (s : String) (json : Unit → Outcome Json) :
    Matching Result.Bare (context.parameter env (.text s) json)
      (context.withLiterals.parameter env (.text s) json) := by
  refine Matching.bind (bare_enter _) ?_
  intro _ _ _
  exact bare_bind hescape hparam s json

private theorem literalEach_texts (hescape : context.escape = .standard) (texts : List String) :
    (literalEach env context.withLiterals (texts.map .text)).answer =
      .ok (texts.map fun s => .text (quote s)) := by
  induction texts with
  | nil => rfl
  | cons s texts ih =>
    rw [List.map_cons, literalEach]
    refine answer_bind_eq_ok.2 ⟨.text (quote s), ?_, answer_bind_eq_ok.2 ⟨_, ih, rfl⟩⟩
    rw [Context.withLiterals, hescape]
    rfl

private theorem bare_renderList (hescape : context.escape = .standard)
    (hparam : context.withParameters = true) {separator : Value}
    (hsep : separator.isWithout '\'' = true) (texts : List String) :
    Matching Result.Bare (renderList env context separator (texts.map .text))
      (renderList env context.withLiterals separator (texts.map .text)) := by
  obtain ⟨sep, rfl, hnone⟩ := Value.isWithout_iff.1 hsep
  have hmarks : (texts.map Value.text).map (fun _ => Value.text "?") =
      (texts.map fun _ => "?").map .text := by
    rw [List.map_map, List.map_map]
    rfl
  unfold renderList
  rw [if_pos hparam, if_neg (by exact Bool.false_ne_true), hmarks, joinWith_texts]
  have hquoted : joinWith (.text sep) (texts.map fun s => Value.text (quote s)) =
      .ok (.text (String.intercalate sep (texts.map quote))) := by
    rw [← joinWith_texts, List.map_map]
    rfl
  have hright : (do
      ofExcept (canJoin (.text sep))
      let pieces ← literalEach env context.withLiterals (texts.map .text)
      let sql ← ofExcept (joinWith (.text sep) pieces)
      pure { sql := sql } : Outcome Result).answer =
      .ok { sql := .text (String.intercalate sep (texts.map quote)) } :=
    answer_bind_eq_ok.2 ⟨(), rfl, answer_bind_eq_ok.2
      ⟨_, literalEach_texts hescape texts, answer_bind_eq_ok.2 ⟨_, hquoted, rfl⟩⟩⟩
  refine .ok rfl hright ⟨Value.isWithout_iff.2 ⟨_, rfl, not_mem_intercalate hnone ?_⟩, _, rfl⟩
  intro mark hmark
  obtain ⟨_, _, rfl⟩ := List.mem_map.1 hmark
  decide

private theorem bare_interleave {rs is : List Rendered} (hrs : List.Forall₂ Rendered.Bare rs is)
    {parts : List Value} (hparts : ∀ part ∈ parts, part.isWithout '\'' = true) {s t : String}
    (hs : '\'' ∉ s.toList) :
    Matching (fun a _ => '\'' ∉ a.toList) (ofExcept (interleave s (rs.map Rendered.toResult) parts))
      (ofExcept (interleave t (is.map Rendered.toResult) parts)) := by
  induction hrs generalizing parts s t with
  | nil => exact .pure hs
  | @cons r i rs is head _ ih =>
    cases r with
    | other v =>
      cases i with
      | other w => exact .error rfl rfl
      | result i => exact head.elim
    | result p =>
      cases i with
      | other w => exact head.elim
      | result i =>
        cases parts with
        | nil => exact .error rfl rfl
        | cons part parts =>
          rw [List.forall_mem_cons] at hparts
          obtain ⟨text, rfl, htext⟩ := Value.isWithout_iff.1 hparts.1
          obtain ⟨x, hx, hnone⟩ := Value.isWithout_iff.1 head.left
          obtain ⟨y, hy⟩ := head.right
          simp only [List.map_cons, Rendered.toResult, interleave, hx, hy]
          apply ih hparts.2
          simp [hs, hnone, htext]

private theorem bare_compose {strings : List Value}
    (hstrings : ∀ part ∈ strings, part.isWithout '\'' = true) {rs is : List Rendered}
    (hrs : List.Forall₂ Rendered.Bare rs is) :
    Matching Result.Bare (ofExcept (compose strings (rs.map Rendered.toResult) context))
      (ofExcept (compose strings (is.map Rendered.toResult) context.withLiterals)) := by
  rw [compose_eq_map, compose_eq_map]
  have htext : Matching (fun a _ => '\'' ∉ a.toList)
      (ofExcept (composedText strings (rs.map Rendered.toResult)))
      (ofExcept (composedText strings (is.map Rendered.toResult))) := by
    unfold composedText
    cases hdedent : dedentParts strings with
    | error cause => exact .error rfl rfl
    | ok parts =>
      have hparts := without_dedentParts (by decide) hstrings hdedent
      cases parts with
      | nil => exact .error rfl rfl
      | cons part rest =>
        rw [List.forall_mem_cons] at hparts
        obtain ⟨first, rfl, hfirst⟩ := Value.isWithout_iff.1 hparts.1
        exact (bare_interleave hrs hparts.2 hfirst).map fun _ _ h => not_mem_strip h
  refine htext.map ?_
  intro a b ha
  exact ⟨Value.isWithout_iff.2 ⟨a, rfl, ha⟩, b, rfl⟩

private theorem bare_surround {strings : List Value}
    (hstrings : ∀ part ∈ strings, part.isWithout '\'' = true) {p i : Result} (h : p.Bare i)
    (hinlines : p.Inlines env context i) :
    Matching Result.Bare (ofExcept (surround context strings p))
      (ofExcept (surround context.withLiterals strings i)) := by
  obtain ⟨literals, s, t, hwritten, hp, hi, hfilled⟩ := hinlines
  have htruthy := isTruthy_of_filled hfilled hwritten.2
  rw [← hp, ← hi] at htruthy
  unfold surround
  by_cases hsome : i.sql.isTruthy = true
  · rw [htruthy, if_pos hsome, if_pos hsome]
    have hone : Rendered.Bare (.result p) (.result i) := h
    exact bare_compose hstrings (.cons hone .nil)
  · rw [htruthy, if_neg hsome, if_neg hsome]
    exact .pure ⟨rfl, _, rfl⟩

private theorem bare_lengthen {sep : String} (hsep : '\'' ∉ sep.toList) (isLast : Bool)
    {s t x y : String} (hs : '\'' ∉ s.toList) (hx : '\'' ∉ x.toList) :
    Matching (fun a b => a.isWithout '\'' = true ∧ ∃ text, b = .text text)
      (lengthen (.text sep) isLast (.text s) (.text x))
      (lengthen (.text sep) isLast (.text t) (.text y)) := by
  refine .ok (answer_lengthen sep isLast s x) (answer_lengthen sep isLast t y) ⟨?_, _, rfl⟩
  apply Value.isWithout_iff.2
  refine ⟨_, rfl, ?_⟩
  have hopened : '\'' ∉ (if (Value.text s).isTruthy then s else sep).toList := by
    split
    · exact hs
    · exact hsep
  have htail : '\'' ∉ (if isLast then stripEndSpaces sep else sep).toList := by
    cases isLast
    · exact hsep
    · exact not_mem_stripEndSpaces hsep
  split
  · simp [hopened, hx, htail]
  · exact hs

/-! ## Whole renders -/

private theorem bare_columnList (depth : Nat) {columns : List Value} {separator : Value}
    (hsep : separator.isWithout '\'' = true)
    (hnames : ∀ column ∈ columns, ∀ written,
      (context.escapeId.write env column).answer = .ok written → written.isWithout '\'' = true) :
    Matching Rendered.Bare (resolve env context depth (.columnList columns separator))
      (resolve env context.withLiterals depth (.columnList columns separator)) := by
  rw [resolve, resolve]
  refine Matching.bind (bare_enter _) ?_
  intro _ _ _
  refine Matching.bind (.same _) ?_
  intro _ _ _
  refine Matching.bind (.same _) ?_
  rintro pieces _ ⟨rfl, hpieces⟩
  refine Matching.bind (.same _) ?_
  rintro sql _ ⟨rfl, hsql⟩
  exact bare_result (bare_of_sql_eq rfl (without_joinWith hsep (without_mapM hnames hpieces) hsql))

mutual

private theorem bare_resolve (hescape : context.escape = .standard)
    (hparam : context.withParameters = true) (depth : Nat) (f : Fragment)
    (hwording : ∀ part ∈ f.wording, part.isWithout '?' = true ∧ part.isWithout '\'' = true)
    (hleaves : ∀ leaf ∈ f.leaves, leaf.Readable env context) :
    Matching Rendered.Bare (resolve env context depth f)
      (resolve env context.withLiterals depth f) := by
  match f with
  | .raw value =>
    rw [resolve_raw, resolve_raw]
    refine Matching.bind (bare_enter _) ?_
    intro _ _ _
    refine Matching.bind (.same _) ?_
    rintro text _ ⟨rfl, htext⟩
    have hbare := (hleaves _ List.mem_cons_self text htext).2
    exact bare_result (bare_of_sql_eq rfl (Value.isWithout_iff.2 ⟨text, rfl, hbare⟩))
  | .identifier name =>
    rw [resolve, resolve]
    refine Matching.bind (bare_enter _) ?_
    intro _ _ _
    refine Matching.bind (.same _) ?_
    rintro sql _ ⟨rfl, hsql⟩
    exact bare_result (bare_of_sql_eq rfl (hleaves _ List.mem_cons_self sql hsql).2)
  | .parameter value =>
    obtain ⟨s, rfl⟩ := hleaves _ List.mem_cons_self
    rw [resolve, resolve]
    refine Matching.bind (bare_parameter hescape hparam s _) ?_
    intro p i h
    exact bare_result h
  | .parameterList values separator =>
    have hvalues : ∀ value ∈ values, ∃ s, value = .text s :=
      fun value hvalue => hleaves (.bound value) (List.mem_map_of_mem hvalue)
    obtain ⟨texts, rfl⟩ := exists_map_text hvalues
    rw [resolve_parameterList, resolve_parameterList]
    refine Matching.bind (bare_enter _) ?_
    intro _ _ _
    have hsep := (hwording separator List.mem_cons_self).2
    refine Matching.bind (bare_renderList hescape hparam hsep texts) ?_
    intro p i h
    exact bare_result h
  | .columnList columns separator =>
    have hnames : ∀ column ∈ columns, ∀ written,
        (context.escapeId.write env column).answer = .ok written →
          written.isWithout '\'' = true :=
      fun column hcolumn written h => (hleaves (.name column) (List.mem_map_of_mem hcolumn) _ h).2
    exact bare_columnList depth (hwording separator List.mem_cons_self).2 hnames
  | .lines members separator =>
    rw [resolve, resolve]
    refine Matching.bind (bare_enter _) ?_
    intro _ _ _
    rw [Fragment.wording, List.forall_mem_cons] at hwording
    obtain ⟨sep, rfl, hsep⟩ := Value.isWithout_iff.1 hwording.1.2
    have hnone : '\'' ∉ "".toList := by decide
    refine Matching.bind
      (bare_linesFrom hescape hparam members hwording.2 hleaves hsep hnone "" [] []) ?_
    intro p i h
    exact bare_result h
  | .clause strings value =>
    rw [resolve_clause, resolve_clause]
    refine Matching.bind (bare_enter _) ?_
    intro _ _ _
    rw [Fragment.wording, List.forall_mem_append] at hwording
    have htight : context.WritesTight env := Context.writesTight_of_standard hescape
    -- Whether the wording is left out depends on the text inside, so that must agree too.
    have hinlines := agree_evaluate htight hparam value (unmarked_wording hwording.2)
      (fun leaf h => (hleaves leaf h).unmarked)
    refine Matching.bind
      ((bare_evaluate hescape hparam value hwording.2 hleaves).and_compatible hinlines) ?_
    rintro r s ⟨h, hinlines⟩
    refine Matching.bind ((bare_expect h).and_compatible (inlines_expect hinlines)) ?_
    rintro p i ⟨h, hinlines⟩
    refine Matching.bind
      (bare_surround (fun part hpart => (hwording.1 part hpart).2) h hinlines) ?_
    intro p i h
    exact bare_result h
  | .template label form strings values =>
    rw [resolve, resolve]
    refine Matching.bind (bare_enter _) ?_
    intro _ _ _
    rw [Fragment.wording, List.forall_mem_append] at hwording
    refine Matching.bind (bare_promotedEach hescape hparam values hwording.2 hleaves) ?_
    intro rs is h
    refine Matching.bind (bare_compose (fun part hpart => (hwording.1 part hpart).2) h) ?_
    intro p i h
    exact bare_result h
  | .deferred label target assigned =>
    rw [resolve_deferred, resolve_deferred]
    refine Matching.bind (bare_enter _) ?_
    intro _ _ _
    match target with
    | .fragment f =>
      rw [follow, follow]
      split
      · exact .error rfl rfl
      · exact bare_resolve hescape hparam (depth + 1) f hwording hleaves
    | .null | .bool _ | .int _ | .float _ _ | .decimal _ _ | .text _ | .dateTime _ | .date _
    | .bytes _ _ | .list _ _ | .tuple _ | .dict _ _ | .object _ _ | .function _ =>
      exact .pure trivial
  | .leaf _ _ _ _ _ | .probe _ _ | .endless _ _ | .unrenderable _ _ _ =>
    exact (hleaves _ List.mem_cons_self).elim
termination_by structural f

private theorem bare_evaluate (hescape : context.escape = .standard)
    (hparam : context.withParameters = true) (target : Value)
    (hwording : ∀ part ∈ target.wording, part.isWithout '?' = true ∧ part.isWithout '\'' = true)
    (hleaves : ∀ leaf ∈ target.leaves, leaf.Readable env context) :
    Matching Rendered.Bare (evaluate env context target)
      (evaluate env context.withLiterals target) := by
  match target with
  | .null => exact bare_result (bare_of_sql_eq rfl (by decide))
  | .text s =>
    rw [evaluate, evaluate, if_pos hparam, if_neg (by exact Bool.false_ne_true)]
    have hcallable : context.withLiterals.escape.isCallable = true := by
      rw [Context.withLiterals, hescape]
      rfl
    rw [if_pos hcallable]
    have hmark : (pure (.result { sql := .text "?", bindings := [.text s] }) : Outcome Rendered) =
        (do
          let result ← context.bind env (.text s) fun _ => pure (.text s)
          pure (.result result)) := by
      rw [Context.bind, if_pos hparam, pure_bind]
    rw [hmark]
    refine Matching.bind (bare_bind hescape hparam s _) ?_
    intro p i h
    exact bare_result h
  | .fragment f =>
    rw [evaluate, evaluate]
    exact bare_resolve hescape hparam 0 f hwording hleaves
  | .bool _ | .int _ | .float _ _ | .decimal _ _ | .dateTime _ | .date _ | .bytes _ _ | .list _ _
  | .tuple _ | .dict _ _ | .object _ _ | .function _ =>
    exact .error rfl rfl
termination_by structural target

private theorem bare_promotedEach (hescape : context.escape = .standard)
    (hparam : context.withParameters = true) (values : List Value)
    (hwording : ∀ part ∈ Value.wordingEach values,
      part.isWithout '?' = true ∧ part.isWithout '\'' = true)
    (hleaves : ∀ leaf ∈ Value.promotedLeaves values, leaf.Readable env context) :
    Matching (List.Forall₂ Rendered.Bare) (promotedEach env context values)
      (promotedEach env context.withLiterals values) := by
  match values with
  | [] => exact .pure .nil
  | value :: rest =>
    rw [Value.wordingEach, List.forall_mem_append] at hwording
    rw [Value.promotedLeaves, List.forall_mem_append] at hleaves
    rw [promotedEach_cons, promotedEach_cons]
    have hfirst : Matching Rendered.Bare (promote env context value)
        (promote env context.withLiterals value) := by
      unfold promote
      by_cases hplain : value.isPlain = true
      · rw [if_pos hplain] at hleaves
        obtain ⟨s, rfl⟩ := hleaves.1 _ List.mem_cons_self
        rw [if_pos hplain, if_pos hplain]
        refine Matching.bind (bare_parameter hescape hparam s _) ?_
        intro p i h
        exact bare_result h
      · rw [if_neg hplain] at hleaves
        rw [if_neg hplain, if_neg hplain]
        exact bare_evaluate hescape hparam value hwording.1 hleaves.1
    refine Matching.bind hfirst ?_
    intro r i hr
    refine Matching.bind (bare_promotedEach hescape hparam rest hwording.2 hleaves.2) ?_
    intro rs is hrs
    exact .pure (.cons hr hrs)
termination_by structural values

private theorem bare_linesFrom (hescape : context.escape = .standard)
    (hparam : context.withParameters = true) (members : List Value)
    (hwording : ∀ part ∈ Value.wordingEach members,
      part.isWithout '?' = true ∧ part.isWithout '\'' = true)
    (hleaves : ∀ leaf ∈ Value.leavesEach members, leaf.Readable env context) {sep s : String}
    (hsep : '\'' ∉ sep.toList) (hs : '\'' ∉ s.toList) (t : String) (done others : List Value) :
    Matching Result.Bare (linesFrom env context (.text sep) (.text s) done members)
      (linesFrom env context.withLiterals (.text sep) (.text t) others members) := by
  match members with
  | [] => exact .pure ⟨Value.isWithout_iff.2 ⟨s, rfl, hs⟩, t, rfl⟩
  | member :: rest =>
    rw [Value.wordingEach, List.forall_mem_append] at hwording
    rw [Value.leavesEach, List.forall_mem_append] at hleaves
    rw [linesFrom_cons, linesFrom_cons]
    refine Matching.bind (bare_evaluate hescape hparam member hwording.1 hleaves.1) ?_
    intro r i hr
    refine Matching.bind (bare_expect hr) ?_
    rintro p i ⟨hp, y, hi⟩
    obtain ⟨x, hx, hnone⟩ := Value.isWithout_iff.1 hp
    rw [hx, hi]
    refine Matching.bind (bare_lengthen hsep rest.isEmpty hs hnone) ?_
    rintro a b ⟨ha, t', rfl⟩
    obtain ⟨s', rfl, hs'⟩ := Value.isWithout_iff.1 ha
    exact bare_linesFrom hescape hparam rest hwording.2 hleaves.2 hsep hs' t' _ _
termination_by structural members

end

/-! ## Reading a statement back -/

private theorem contributions_readable {leaves : List Leaf}
    (hleaves : ∀ leaf ∈ leaves, leaf.Readable env context) :
    ∃ texts : List String, contributions context leaves = texts.map .text := by
  apply exists_map_text
  intro value hvalue
  obtain ⟨leaf, hleaf, hvalue⟩ := List.mem_flatMap.1 hvalue
  cases leaf with
  | bound bound =>
    obtain ⟨s, rfl⟩ := hleaves _ hleaf
    rw [Leaf.bindings] at hvalue
    split at hvalue
    · exact ⟨s, List.mem_singleton.1 hvalue⟩
    · cases hvalue
  | custom f => exact (hleaves _ hleaf).elim
  | null | verbatim _ | name _ => cases hvalue

private theorem literals_eq_quote (hescape : context.escape = .standard) {texts literals : List String}
    (h : List.Forall₂ (context.WritesAs env) (texts.map .text) literals) :
    literals = texts.map quote := by
  induction texts generalizing literals with
  | nil =>
    cases h
    rfl
  | cons s texts ih =>
    cases h with
    | cons hfirst hrest =>
      rw [Context.WritesAs, hescape] at hfirst
      cases hfirst
      rw [ih hrest]
      rfl

/-- A statement of texts, written with literals in the way of the library, is read back: it ends
outside of a literal, its literals decode to what the statement with placeholders binds, in order,
and around them stands that statement without its placeholders. -/
theorem Options.scan_render_inlined {options inlined : Options}
    (hoptions : options.normalize = .ok context) (hparam : context.withParameters = true)
    (hinlined : inlined.normalize = .ok context.withLiterals)
    (hescape : context.escape = .standard) {target : Value}
    (hwording : ∀ part ∈ target.wording, part.isWithout '?' = true ∧ part.isWithout '\'' = true)
    (hleaves : ∀ leaf ∈ target.leaves, leaf.Readable env context) {i : Result}
    (hi : inlined.render env target = .ok (.result i)) :
    ∃ (p : Result) (texts : List String) (s t : String) (found : Scan),
      options.render env target = .ok (.result p) ∧ p.bindings = texts.map .text ∧
      p.sql = .text s ∧ i.sql = .text t ∧ scan? t.toList = some found ∧
      found.outside = s.toList.filter (· != '?') ∧
      found.bodies.mapM decode? = some (texts.map String.toList) := by
  have hright : (evaluate env context.withLiterals target).answer = .ok (.result i) := by
    rwa [render, hinlined] at hi
  have htight : context.WritesTight env := Context.writesTight_of_standard hescape
  have hagree := agree_evaluate htight hparam target (unmarked_wording hwording)
    (fun leaf h => (hleaves leaf h).unmarked)
  cases (bare_evaluate hescape hparam target hwording hleaves).and_compatible hagree with
  | error _ hy =>
    rw [hright] at hy
    cases hy
  | @ok r _ hx hy related =>
    rw [hright] at hy
    cases hy
    cases r with
    | other v => exact related.1.elim
    | result p =>
      obtain ⟨hbare, literals, s, t, hwritten, hs, ht, hfilled⟩ := related
      obtain ⟨texts, htexts⟩ := contributions_readable hleaves
      have hbindings : p.bindings = texts.map .text := by
        rw [← htexts]
        exact bindings_of_evaluate target hx
      rw [hbindings] at hwritten
      have hliterals : literals.map String.toList = texts.map fun s => (quote s).toList := by
        rw [literals_eq_quote hescape hwritten.1, List.map_map]
        rfl
      have hnone : '\'' ∉ s.toList := by
        obtain ⟨s', hs', hnone⟩ := Value.isWithout_iff.1 hbare.left
        rw [hs] at hs'
        cases hs'
        exact hnone
      rw [hliterals] at hfilled
      refine ⟨p, texts, s, t, _, ?_, hbindings, hs, ht, scan?_of_filled hfilled hnone, rfl, ?_⟩
      · rw [render, hoptions]
        exact hx
      · exact mapM_decode? texts

/-- Apostrophes and backslashes at the ends of adjacent texts do not join their literals. -/
theorem Options.scan_render_inlined_adjacent :
    ∃ (p : Result) (texts : List String) (s t : String) (found : Scan),
      Options.absent.render {} (.fragment (.lines [.text "a\\", .text "' or '"] (.text ""))) =
        .ok (.result p) ∧ p.bindings = texts.map .text ∧
      p.sql = .text s ∧ Value.text "'a\\\\''\\' or \\''" = .text t ∧
      scan? t.toList = some found ∧ found.outside = s.toList.filter (· != '?') ∧
      found.bodies.mapM decode? = some (texts.map String.toList) := by
  have hi : (Options.mapping 0 (inlinedFields [])).render {}
      (.fragment (.lines [.text "a\\", .text "' or '"] (.text ""))) =
      .ok (.result { sql := .text "'a\\\\''\\' or \\''" }) := by cbv
  have hleaves : ∀ leaf ∈ Value.leaves
      (.fragment (.lines [.text "a\\", .text "' or '"] (.text ""))), leaf.Readable {} {} := by
    intro leaf h
    have hlist : leaf ∈ [Leaf.bound (.text "a\\"), .bound (.text "' or '")] := h
    rw [List.mem_cons, List.mem_singleton] at hlist
    rcases hlist with rfl | rfl <;> exact ⟨_, rfl⟩
  exact scan_render_inlined rfl rfl rfl rfl (by decide) hleaves hi

end SqlFragments
