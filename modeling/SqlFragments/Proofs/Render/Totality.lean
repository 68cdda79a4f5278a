import Mathlib
import SqlFragments.Proofs.Render.Built

/-!
# Built trees render

The checks made when a tree is built are all that its render needs. With placeholders a built tree
comes to a text under whatever time zone, method and preparing, if names are written as texts. With
literals it does just where all its values have literals: no whole number is too long, and what is
written as structured text can be.
-/

namespace SqlFragments

open Outcome Number

variable {env : Environment} {context : Context} {P : Failure → Prop}

def Value.IsText (value : Value) : Prop := ∃ s, value = .text s

def Rendered.IsText (rendered : Rendered) : Prop :=
  ∃ result : Result, rendered = .result result ∧ result.sql.IsText

/-- What the render of a tree asks of its surroundings: escapers that can be called, names that are
written as texts, and for each value that is written or taken over a text or a failure of some
sort. -/
structure Context.Serves (env : Environment) (context : Context) (P : Failure → Prop)
    (leaves : List Leaf) : Prop where
  escape : context.escape.isCallable = true
  escapeId : context.escapeId.isCallable = true
  name (s : String) : Settles Value.IsText P (context.escapeId.write env (.text s))
  bound (value : Value) (h : .bound value ∈ leaves) (hliteral : context.withParameters = false) :
    Settles Value.IsText P
      (context.escape.write env value context.timezone fun _ => json env value)
  verbatim (value : Value) (h : .verbatim value ∈ leaves) :
    Settles (fun _ => True) P (verbatimText env value)

theorem Context.Serves.mono {leaves others : List Leaf} (h : context.Serves env P leaves)
    (hsubset : others ⊆ leaves) : context.Serves env P others where
  escape := h.escape
  escapeId := h.escapeId
  name := h.name
  bound value hvalue := h.bound value (hsubset hvalue)
  verbatim value hvalue := h.verbatim value (hsubset hvalue)

private theorem settles_bind {leaves : List Leaf} (h : context.Serves env P leaves)
    {value : Value} (hvalue : .bound value ∈ leaves) :
    Settles (fun result : Result => result.sql.IsText) P
      (context.bind env value fun _ => json env value) := by
  unfold Context.bind
  split
  · exact .pure ⟨"?", rfl⟩
  · next hliteral =>
    apply (h.bound value hvalue (Bool.eq_false_iff.2 hliteral)).bind
    intro sql hsql
    exact .pure hsql

private theorem settles_joinWith {separator : Value} (hsep : separator.text?.isSome = true)
    {pieces : List Value} (hpieces : ∀ piece ∈ pieces, piece.IsText) :
    Settles Value.IsText P (Outcome.ofExcept (joinWith separator pieces)) := by
  obtain ⟨sep, rfl⟩ := Value.text_of_isSome hsep
  obtain ⟨texts, rfl⟩ : ∃ texts : List String, pieces = texts.map .text := by
    apply Value.texts_of_forall
    intro piece hpiece
    obtain ⟨s, rfl⟩ := hpieces piece hpiece
    rfl
  rw [joinWith_texts]
  exact .pure ⟨_, rfl⟩

private theorem settles_canJoin {separator : Value} (hsep : separator.text?.isSome = true) :
    Settles (fun _ => True) P (Outcome.ofExcept (canJoin separator)) := by
  obtain ⟨sep, rfl⟩ := Value.text_of_isSome hsep
  exact .ok rfl trivial

private theorem settles_renderList {leaves : List Leaf} (h : context.Serves env P leaves)
    {values : List Value} (hvalues : ∀ value ∈ values, .bound value ∈ leaves) {separator : Value}
    (hsep : separator.text?.isSome = true) :
    Settles (fun result : Result => result.sql.IsText) P
      (renderList env context separator values) := by
  unfold renderList
  split
  · apply Settles.bind (settles_joinWith hsep _)
    · intro sql hsql
      exact .pure hsql
    · intro piece hpiece
      obtain ⟨_, _, rfl⟩ := List.mem_map.1 hpiece
      exact ⟨"?", rfl⟩
  · next hliteral =>
    apply (settles_canJoin hsep).bind
    intro _ _
    rw [literalEach_eq_mapM]
    apply Settles.bind (Settles.mapM fun value hvalue =>
      h.bound value (hvalues value hvalue) (Bool.eq_false_iff.2 hliteral))
    rintro pieces ⟨-, hpieces⟩
    apply (settles_joinWith hsep hpieces).bind
    intro sql hsql
    exact .pure hsql

private theorem settles_linesBy {members : List Value}
    (hmembers : ∀ member ∈ members, Settles Rendered.IsText P (evaluate env context member))
    (sep sql : String) (bindings : List Value) :
    Settles (fun result : Result => result.sql.IsText) P
      (linesBy id (evaluate env context) (.text sep) (.text sql) bindings members) := by
  induction members generalizing sql bindings with
  | nil => exact .pure ⟨sql, rfl⟩
  | cons member rest ih =>
    rw [List.forall_mem_cons] at hmembers
    apply hmembers.1.bind
    rintro _ ⟨q, rfl, line, hline⟩
    apply Settles.bind (Q := fun i => i = q) (.pure rfl)
    rintro _ rfl
    rw [hline]
    apply Settles.bind (Q := Value.IsText) (.ok (answer_lengthen sep _ sql line) ⟨_, rfl⟩)
    rintro _ ⟨extended, rfl⟩
    exact ih hmembers.2 extended _

private theorem settles_compose {strings : List Value} {rs : List Rendered}
    (hstrings : strings.all (·.text?.isSome) = true) (hlength : strings.length = rs.length + 1)
    (hrs : ∀ r ∈ rs, r.IsText) :
    Settles (fun result : Result => result.sql.IsText) P
      (Outcome.ofExcept (compose strings (rs.map Rendered.toResult) context)) := by
  obtain ⟨texts, rfl⟩ := Value.texts_of_forall (List.all_eq_true.1 hstrings)
  have htexts : ∀ r ∈ rs.map Rendered.toResult, ∃ (q : Result) (s : String),
      r = .ok q ∧ q.sql = .text s := by
    intro r hr
    obtain ⟨rendered, hrendered, rfl⟩ := List.mem_map.1 hr
    obtain ⟨q, rfl, s, hs⟩ := hrs rendered hrendered
    exact ⟨q, s, rfl, hs⟩
  have hcount : texts.length = (rs.map Rendered.toResult).length + 1 := by
    rw [List.length_map] at hlength ⊢
    exact hlength
  obtain ⟨result, s, hok, hs⟩ := compose_of_texts htexts hcount
  exact .ok hok ⟨s, hs⟩

private theorem settles_renderBy {f : Fragment} (hshaped : f.isShaped = true)
    (h : context.Serves env P f.leaves)
    (hparts : ∀ part ∈ f.parts, Settles Rendered.IsText P (evaluate env context part)) :
    Settles Rendered.IsText P (f.renderBy id (evaluate env context) env context) := by
  have hresult : ∀ result : Result, result.sql.IsText →
      Settles Rendered.IsText P (pure (.result result)) :=
    fun result htext => .pure ⟨result, rfl, htext⟩
  cases f with
  | raw value =>
    apply (h.verbatim value List.mem_cons_self).bind
    intro s _
    exact hresult _ ⟨s, rfl⟩
  | identifier name =>
    apply (h.name name).bind
    intro sql hsql
    exact hresult _ hsql
  | parameter value => exact (settles_bind h List.mem_cons_self).bind hresult
  | parameterList values separator =>
    have hleaves : ∀ value ∈ values,
        .bound value ∈ (Fragment.parameterList values separator).leaves :=
      fun value hvalue => List.mem_map_of_mem hvalue
    exact (settles_renderList h hleaves hshaped).bind hresult
  | columnList columns separator =>
    rw [Fragment.isShaped, Bool.and_eq_true] at hshaped
    apply (settles_canJoin hshaped.2).bind
    intro _ _
    have hnames : ∀ column ∈ columns,
        Settles Value.IsText P (context.escapeId.write env column) := by
      intro column hcolumn
      obtain ⟨s, rfl⟩ := Value.text_of_isSome (List.all_eq_true.1 hshaped.1 column hcolumn)
      exact h.name s
    apply (Settles.mapM hnames).bind
    rintro pieces ⟨-, hpieces⟩
    apply (settles_joinWith hshaped.2 hpieces).bind
    intro sql hsql
    exact hresult _ hsql
  | lines members separator =>
    obtain ⟨sep, rfl⟩ := Value.text_of_isSome hshaped
    exact (settles_linesBy hparts sep "" []).bind hresult
  | clause strings value =>
    simp only [Fragment.isShaped, Bool.and_eq_true, beq_iff_eq] at hshaped
    apply (hparts value List.mem_cons_self).bind
    rintro _ ⟨q, rfl, htext⟩
    apply Settles.bind (Q := fun i => i = q) (.pure rfl)
    rintro inner rfl
    refine Settles.bind ?_ hresult
    unfold surround
    split
    · have hone : ∀ r ∈ [Rendered.result inner], r.IsText :=
        fun r hr => ⟨inner, List.mem_singleton.1 hr, htext⟩
      have hlength : strings.length = [Rendered.result inner].length + 1 := hshaped.2
      exact settles_compose hshaped.1 hlength hone
    · exact .pure ⟨"", rfl⟩
  | template label form strings values =>
    simp only [Fragment.isShaped, Bool.and_eq_true, beq_iff_eq] at hshaped
    rw [Fragment.renderBy, valuesBy_eq_mapM]
    apply (Settles.mapM hparts).bind
    rintro rs ⟨hlength, hrs⟩
    refine Settles.bind (settles_compose hshaped.1 ?_ hrs) hresult
    rw [hshaped.2, hlength]
    simp [Fragment.parts]
  | _ => cases hshaped

/-- A tree of the right shape renders. -/
theorem settles_evaluate (target : Value)
    (hshaped : ∀ node ∈ target.occurrences, node.isShaped = true)
    (h : context.Serves env P target.leaves) :
    Settles Rendered.IsText P (evaluate env context target) := by
  induction target using Value.parts_induction with
  | fragment f ih =>
    have hf : f.isShaped = true := hshaped _ (Value.mem_occurrences_self _)
    have hmade := Fragment.assignable_of_isShaped hf
    have hallow : context.allow f = .ok () := by
      rw [Context.allow_eq_ok]
      refine ⟨h.escape, h.escapeId, ?_⟩
      cases f with
      | leaf | probe | deferred | endless | unrenderable => cases hf
      | _ => rfl
    rw [evaluate, resolve_of_next_none (Fragment.next_of_assignable hmade)]
    apply Settles.bind (Q := fun _ => True) (.ok ((answer_enter f).trans hallow) trivial)
    intro _ _
    apply settles_renderBy hf h
    intro part hpart
    have hsubset := Value.occurrences_subset (Value.mem_occurrences_of_part hpart)
    exact ih part hpart (fun node hnode => hshaped node (hsubset hnode))
      (h.mono (Fragment.leaves_part part hpart))
  | other value hne =>
    cases value with
    | fragment f => exact absurd rfl (hne f)
    | null => exact .pure ⟨_, rfl, "NULL", rfl⟩
    | text s =>
      rw [evaluate_text, if_pos (.inr h.escape)]
      apply (settles_bind h List.mem_cons_self).bind
      intro result hresult
      exact .pure ⟨result, rfl, hresult⟩
    | _ => cases hshaped _ (Value.mem_occurrences_self _)

/-! ## Values that are written as structured text -/

/-- Whether a value has no literal of its own: it holds other values, is a fragment, or has no more
than a text to show. -/
def Value.isStructured : Value → Bool
  | .list _ _ | .tuple _ | .dict _ _ | .object _ _ | .function _ | .fragment _ => true
  | _ => false

/-- Whether a value can be written in the way of the library. -/
structure Value.HasLiteral (env : Environment) (value : Value) : Prop where
  short : value.isOverlong = false
  structured (h : value.isStructured = true) : ∃ tree, (json env value).answer = .ok tree

/-- What is in the way of writing a value: it is too long, or it has no structured text. -/
inductive Value.LacksLiteral (env : Environment) (value : Value) : Failure → Prop
  | overlong (h : value.isOverlong = true) : LacksLiteral env value .badValue
  | structured {cause : Failure} (h : value.isStructured = true)
      (hjson : (json env value).answer = .error cause) : LacksLiteral env value cause

private theorem isStructured_of_scalar {hostMinutes : Rat} {timezone value : Value}
    (h : Literal.scalar? hostMinutes timezone value = none) : value.isStructured = true := by
  cases value with
  | list | tuple | dict | object | function | fragment => rfl
  | _ => cases h

private theorem settles_write (value timezone : Value) :
    Settles Value.IsText (value.LacksLiteral env)
      (LiteralEscaper.standard.write env value timezone fun _ => json env value) := by
  rw [LiteralEscaper.write]
  cases hscalar : Literal.scalar? env.hostMinutes timezone value with
  | some written =>
    cases written with
    | ok s => exact .pure ⟨s, rfl⟩
    | error cause =>
      obtain ⟨hlong, rfl⟩ := Literal.scalar?_eq_error_iff.1 hscalar
      exact .error rfl (.overlong hlong)
  | none =>
    have hstructured := isStructured_of_scalar hscalar
    cases hjson : (json env value).answer with
    | error cause =>
      exact .error (answer_bind_eq_error.2 (.inl hjson)) (.structured hstructured hjson)
    | ok tree => exact .ok (answer_bind_eq_ok.2 ⟨tree, hjson, rfl⟩) ⟨_, rfl⟩

theorem Value.HasLiteral.not_lacks {value : Value} (h : value.HasLiteral env) {cause : Failure} :
    ¬ value.LacksLiteral env cause := by
  rintro (hlong | ⟨hstructured, hjson⟩)
  · rw [h.short] at hlong
    cases hlong
  · obtain ⟨tree, htree⟩ := h.structured hstructured
    rw [htree] at hjson
    cases hjson

private theorem hasLiteral_of_write {value timezone literal : Value}
    (h : (LiteralEscaper.standard.write env value timezone fun _ => json env value).answer =
      .ok literal) : value.HasLiteral env := by
  rw [LiteralEscaper.write] at h
  constructor
  · rw [Bool.eq_false_iff]
    intro hlong
    rw [Literal.scalar?_eq_error_iff.2 ⟨hlong, rfl⟩] at h
    cases h
  · intro hstructured
    have hscalar : Literal.scalar? env.hostMinutes timezone value = none := by
      cases value with
      | list | tuple | dict | object | function | fragment => rfl
      | _ => cases hstructured
    rw [hscalar] at h
    obtain ⟨tree, htree, _⟩ := answer_bind_eq_ok.1 h
    exact ⟨tree, htree⟩

private theorem write_of_renderBy (hliteral : context.withParameters = false) {f : Fragment}
    (hmade : f.assignable? = none) {rendered : Rendered}
    (hok : (f.renderBy id (evaluate env context) env context).answer = .ok rendered)
    {value : Value} (hvalue : .bound value ∈ f.ownLeaves) : ∃ literal,
      (context.escape.write env value context.timezone fun _ => json env value).answer =
        .ok literal := by
  cases f with
  | parameter value =>
    cases List.mem_singleton.1 hvalue
    obtain ⟨_, hbind, _⟩ := answer_bind_eq_ok.1 hok
    rw [Context.bind, if_neg (Bool.eq_false_iff.1 hliteral)] at hbind
    obtain ⟨literal, hwrite, _⟩ := answer_bind_eq_ok.1 hbind
    exact ⟨literal, hwrite⟩
  | parameterList values separator =>
    obtain ⟨bound, hbound, ⟨⟩⟩ := List.mem_map.1 hvalue
    obtain ⟨_, hlist, _⟩ := answer_bind_eq_ok.1 hok
    rw [renderList, if_neg (Bool.eq_false_iff.1 hliteral)] at hlist
    obtain ⟨_, _, hlist⟩ := answer_bind_eq_ok.1 hlist
    obtain ⟨pieces, hpieces, _⟩ := answer_bind_eq_ok.1 hlist
    rw [literalEach_eq_mapM, answer_mapM_eq_ok] at hpieces
    obtain ⟨literal, -, hwrite⟩ := exists_of_forall₂ hpieces value hbound
    exact ⟨literal, hwrite⟩
  | raw | identifier => cases List.mem_singleton.1 hvalue
  | columnList columns separator =>
    obtain ⟨_, _, ⟨⟩⟩ := List.mem_map.1 hvalue
  | lines | clause | template => cases hvalue
  | leaf | probe | deferred | endless | unrenderable => cases hmade

/-- All that a tree binds has been written where it renders without placeholders. -/
theorem write_of_evaluate (hliteral : context.withParameters = false) {target : Value}
    (hlibrary : target.IsLibrary) {rendered : Rendered}
    (hok : (evaluate env context target).answer = .ok rendered) {value : Value}
    (hvalue : .bound value ∈ target.leaves) : ∃ literal,
      (context.escape.write env value context.timezone fun _ => json env value).answer =
        .ok literal := by
  rcases Value.exists_node_of_bound hvalue with ⟨f, hf, hown⟩ | ⟨s, rfl, hs⟩
  · obtain ⟨_, hnode⟩ := evaluate_node hlibrary hok _ hf
    have hmade := hlibrary f hf
    exact write_of_renderBy hliteral hmade ((evaluate_of_assignable hmade).1 hnode).2 hown
  · obtain ⟨_, hnode⟩ := evaluate_node hlibrary hok _ hs
    rw [evaluate_text] at hnode
    split at hnode
    · obtain ⟨_, hbind, _⟩ := answer_bind_eq_ok.1 hnode
      rw [Context.bind, if_neg (Bool.eq_false_iff.1 hliteral)] at hbind
      obtain ⟨literal, hwrite, _⟩ := answer_bind_eq_ok.1 hbind
      exact ⟨literal, hwrite⟩
    · cases hnode

/-- What keeps a value without fragments from having a text: a part without a name or without a text
to show, or a whole number that is too long. -/
def Failure.IsUnwritable (cause : Failure) : Prop := cause = .wrongType ∨ cause = .badValue

private theorem settles_shown (value : Value) (text : String) :
    Settles (fun _ => True) Failure.IsUnwritable (Outcome.ofExcept (value.shown text)) := by
  unfold Value.shown
  split
  · exact .ok rfl trivial
  · next obstacle _ =>
    cases obstacle with
    | textless => exact .error rfl (.inl rfl)
    | overlong => exact .error rfl (.inr rfl)

private theorem settles_ofInt (n : Int) :
    Settles (fun _ => True) Failure.IsUnwritable (Outcome.ofExcept (Number.Whole.ofInt n)) := by
  unfold Number.Whole.ofInt
  split
  · exact .ok rfl trivial
  · exact .error rfl (.inr rfl)

private theorem settles_key (key : Value) :
    Settles (fun _ => True) Failure.IsUnwritable (Outcome.ofExcept (Json.key key)) := by
  cases key with
  | null | bool | float | text => exact .ok rfl trivial
  | int n =>
    rw [Json.key, Literal.wholeText, ← ofExcept_bind_pure]
    exact (settles_ofInt n).bind fun _ _ => .pure trivial
  | _ => exact .error rfl (.inl rfl)

mutual

theorem settles_json (value : Value) (h : value.isPure = true) :
    Settles (fun _ => True) Failure.IsUnwritable (json env value) := by
  match value with
  | .list _ items | .tuple items =>
    rw [json]
    exact (settles_jsonEach items h).bind fun _ _ => .pure trivial
  | .dict _ entries =>
    rw [json]
    exact (settles_jsonEntries entries h).bind fun _ _ => .pure trivial
  | .fragment f => cases h
  | .dateTime _ | .date _ | .bytes _ _ | .decimal _ _ | .object _ _ | .function _ =>
    rw [json]
    · exact (settles_shown _ _).bind fun _ _ => .pure trivial
    all_goals simp
  | .int n =>
    rw [json]
    exact (settles_ofInt n).bind fun _ _ => .pure trivial
  | .null | .bool _ | .float _ _ | .text _ => exact .pure trivial
termination_by structural value

private theorem settles_jsonEach (items : List Value) (h : Value.arePure items = true) :
    Settles (fun _ => True) Failure.IsUnwritable (jsonEach env items) := by
  match items with
  | [] => exact .pure trivial
  | value :: rest =>
    rw [Value.arePure, Bool.and_eq_true] at h
    rw [jsonEach]
    apply (settles_json value h.1).bind
    intro _ _
    exact (settles_jsonEach rest h.2).bind fun _ _ => .pure trivial
termination_by structural items

private theorem settles_jsonEntries (entries : List (Value × Value))
    (h : Value.entriesPure entries = true) :
    Settles (fun _ => True) Failure.IsUnwritable (jsonEntries env entries) := by
  match entries with
  | [] => exact .pure trivial
  | (key, value) :: rest =>
    rw [Value.entriesPure, Bool.and_eq_true, Bool.and_eq_true] at h
    rw [jsonEntries]
    apply (settles_key key).bind
    intro _ _
    apply (settles_json value h.1.2).bind
    intro _ _
    exact (settles_jsonEntries rest h.2).bind fun _ _ => .pure trivial
termination_by structural entries

end

theorem Value.LacksLiteral.isUnwritable {value : Value} {cause : Failure}
    (h : value.LacksLiteral env cause) (hpure : value.isPure = true) : cause.IsUnwritable := by
  cases h with
  | overlong _ => exact .inr rfl
  | structured _ hjson =>
    have hsettles : Settles (fun _ => True) Failure.IsUnwritable (json env value) :=
      settles_json value hpure
    cases hsettles with
    | ok hok _ =>
      rw [hjson] at hok
      cases hok
    | error herror hcause =>
      cases herror.symm.trans hjson
      exact hcause

/-! ## Built trees under options -/

def IdentifierEscaper.WritesTexts (env : Environment) (escaper : IdentifierEscaper) : Prop :=
  escaper.isCallable = true ∧ ∀ s, ∃ t, (escaper.write env (.text s)).answer = .ok (.text t)

/-- Whatever was built renders, with all that stands in it. With placeholders it comes to a text.
With literals written in the way of the library it does just where no whole number that it binds is
too long, and each value that holds other values or has no more than a text to show has a structured
text. If it fails, it does so for what one of its values lacks. -/
theorem Options.built_renders {options : Options} {fields : Entries Setting} {target : Value}
    (hbuilt : target.IsBuilt)
    (hverbatim : ∀ value, .verbatim value ∈ target.leaves →
      ∃ s, (verbatimText env value).answer = .ok s)
    (hfields : options.fields = .ok fields)
    (hescape : ∀ setting, fields.get? (.text "escape") = some setting →
      setting.isTruthy = true → setting.toLiteralEscaper.isCallable = true)
    (hescapeId : ∀ setting, fields.get? (.text "escape_id") = some setting →
      setting.isTruthy = true → setting.toIdentifierEscaper.WritesTexts env) :
    (fields.get? withParametersKey ≠ some (.value (.bool false)) →
      ∀ node ∈ target.occurrences, ∃ result : Result,
        options.render env node = .ok (.result result) ∧ result.sql.IsText) ∧
    (fields.get? withParametersKey = some (.value (.bool false)) →
      (∀ setting, fields.get? (.text "escape") = some setting → setting.isTruthy = true →
        setting = .literalEscaper .standard) →
      ∀ node ∈ target.occurrences,
        ((∃ result : Result, options.render env node = .ok (.result result) ∧
          result.sql.IsText) ↔ ∀ value, .bound value ∈ node.leaves → value.HasLiteral env) ∧
        ∀ cause, options.render env node = .error cause → ∃ value, .bound value ∈ node.leaves ∧
          value.LacksLiteral env cause ∧ (value.isPure = true → cause.IsUnwritable)) := by
  have hcallable : (Context.ofFields fields).escape.isCallable = true :=
    holds_of_setting (Q := fun e : LiteralEscaper => e.isCallable = true) rfl hescape
  have hnames : (Context.ofFields fields).escapeId.WritesTexts env :=
    holds_of_setting ⟨rfl, fun s => ⟨_, rfl⟩⟩ hescapeId
  have hserves : ∀ (P : Failure → Prop), ∀ node ∈ target.occurrences,
      (∀ value, .bound value ∈ node.leaves → (Context.ofFields fields).withParameters = false →
        Settles Value.IsText P ((Context.ofFields fields).escape.write env value
          (Context.ofFields fields).timezone fun _ => json env value)) →
      Settles Rendered.IsText P (SqlFragments.evaluate env (Context.ofFields fields) node) := by
    intro P node hnode hbound
    apply settles_evaluate node
    · exact fun inner hinner => ((hbuilt.node hnode).node hinner).isShaped
    · refine ⟨hcallable, hnames.1, fun s => ?_, hbound, fun value hvalue => ?_⟩
      · obtain ⟨t, ht⟩ := hnames.2 s
        exact .ok ht ⟨t, rfl⟩
      · obtain ⟨s, hs⟩ := hverbatim value (Value.leaves_subset hnode hvalue)
        exact .ok hs trivial
  constructor
  · intro hmarks node hnode
    have hparam := (Context.withParameters_ofFields fields).2 hmarks
    have hsettles := hserves (fun _ => False) node hnode fun value _ hliteral => by
      rw [hparam] at hliteral
      cases hliteral
    rw [render_of_fields hfields]
    cases hsettles with
    | ok hok htext =>
      obtain ⟨result, rfl, htext⟩ := htext
      exact ⟨result, hok, htext⟩
    | error _ hnever => exact hnever.elim
  · intro hliterals hstandard node hnode
    have hescape : (Context.ofFields fields).escape = .standard :=
      holds_of_setting (Q := (· = LiteralEscaper.standard)) rfl fun setting hget htruthy => by
        rw [hstandard setting hget htruthy]
        rfl
    have hliteral : (Context.ofFields fields).withParameters = false := by
      rw [← Bool.not_eq_true, Context.withParameters_ofFields, not_not]
      exact hliterals
    rw [render_of_fields hfields]
    have hlibrary : node.IsLibrary := fun f hf =>
      Fragment.assignable_of_isShaped ((hbuilt.node hnode).node hf).isShaped
    refine ⟨⟨?_, fun hwritable => ?_⟩, fun cause hfails => ?_⟩
    · rintro ⟨result, hok, -⟩ value hvalue
      obtain ⟨literal, hwrite⟩ := write_of_evaluate hliteral hlibrary hok hvalue
      rw [hescape] at hwrite
      exact hasLiteral_of_write hwrite
    · have hsettles := hserves (fun _ => False) node hnode fun value hvalue _ => by
        rw [hescape]
        exact (settles_write value _).mono fun cause => (hwritable value hvalue).not_lacks
      cases hsettles with
      | ok hok htext =>
        obtain ⟨result, rfl, htext⟩ := htext
        exact ⟨result, hok, htext⟩
      | error _ hnever => exact hnever.elim
    · let P (cause : Failure) : Prop := ∃ value, .bound value ∈ node.leaves ∧
        value.LacksLiteral env cause
      have hsettles := hserves P node hnode fun value hvalue _ => by
        rw [hescape]
        exact (settles_write value _).mono fun cause hcause => ⟨value, hvalue, hcause⟩
      cases hsettles with
      | ok hok _ =>
        rw [hfails] at hok
        cases hok
      | error herror hlacks =>
        cases herror.symm.trans hfails
        obtain ⟨value, hvalue, hlacks⟩ := hlacks
        exact ⟨value, hvalue, hlacks, hlacks.isUnwritable⟩

/-- A statement with columns, a clause around a list of values, and a text that is taken over, under
options without an escaper and with a time zone that is none, and with literals. -/
theorem Options.built_renders_select :
    let fields : Entries Setting :=
      [(.text "escape", .value .null), (.text "timezone", .value (.int 5))]
    let options : Options := .mapping 0 fields
    let columns : Fragment := .columnList [.text "a", .text "b"] (.text ", ")
    let ids : Fragment := .parameterList [.int 1, .list 0 [.int 2]] (.text ", ")
    let clause : Fragment := .clause [.text "WHERE id IN (", .text ")"] (.fragment ids)
    let lines : Fragment := .lines [.text "x", .fragment (.raw (.text "y"))] (.text "\n")
    let target : Value := .fragment (.template 0 .statement
      [.text "SELECT ", .text " FROM t ", .text "", .text ""]
      [.fragment columns, .fragment clause, .fragment lines])
    (target.IsBuilt ∧
      (∀ value, .verbatim value ∈ target.leaves → ∃ s, (verbatimText {} value).answer = .ok s) ∧
      options.fields = .ok fields ∧
      (∀ setting, fields.get? (.text "escape") = some setting → setting.isTruthy = true →
        setting.toLiteralEscaper.isCallable = true) ∧
      (∀ setting, fields.get? (.text "escape_id") = some setting → setting.isTruthy = true →
        setting.toIdentifierEscaper.WritesTexts {})) ∧
    fields.get? withParametersKey ≠ some (.value (.bool false)) ∧
    ∀ node ∈ target.occurrences,
      (∃ result : Result, options.render {} node = .ok (.result result) ∧ result.sql.IsText) ∧
      ∃ result : Result, (Options.mapping 0 [(withParametersKey, .value (.bool false))]).render {}
        node = .ok (.result result) ∧ result.sql.IsText := by
  intro fields options columns ids clause lines target
  have hcolumns : (Value.fragment columns).IsBuilt := by
    have hnames : (Value.list 0 [.text "a", .text "b"]).items? = some (["a", "b"].map .text) := rfl
    have hbuild : Fragment.columns (.list 0 [.text "a", .text "b"])
        ((none : Option String).map .text) = .ok columns := rfl
    exact .columns hnames hbuild
  have hids : (Value.fragment ids).IsBuilt := by
    have hbuild : Fragment.parameters (.list 0 [.int 1, .list 0 [.int 2]])
        ((none : Option String).map .text) = .ok ids := rfl
    exact .parameters hbuild
  have hclause : (Value.fragment clause).IsBuilt := by
    have hparts : (Value.list 0 [.text "WHERE id IN (", .text ")"]).items? =
        some (["WHERE id IN (", ")"].map .text) := rfl
    have hbuild : Fragment.conditional (.list 0 [.text "WHERE id IN (", .text ")"])
        [.fragment ids] = .ok clause := rfl
    refine .conditional hparts (fun value hvalue => ?_) hbuild
    rw [List.mem_singleton.1 hvalue]
    exact hids
  have hlines : (Value.fragment lines).IsBuilt := by
    have hmembers : (Value.tuple [.text "x", .fragment (.raw (.text "y"))]).items? =
        some [.text "x", .fragment (.raw (.text "y"))] := rfl
    have hbuild : Fragment.joined (.tuple [.text "x", .fragment (.raw (.text "y"))])
        ((none : Option String).map .text) = .ok lines := rfl
    refine .joined hmembers ?_ hbuild
    simp only [List.forall_mem_cons]
    exact ⟨.text "x", .verbatim (.text "y"), fun _ h => by cases h⟩
  have hbuilt : target.IsBuilt := by
    have hparts : (Value.list 0 [.text "SELECT ", .text " FROM t ", .text "", .text ""]).items? =
        some (["SELECT ", " FROM t ", "", ""].map .text) := rfl
    have hbuild : Fragment.statement 0
        (.list 0 [.text "SELECT ", .text " FROM t ", .text "", .text ""])
        [.fragment columns, .fragment clause, .fragment lines] = .ok (.template 0 .statement
          [.text "SELECT ", .text " FROM t ", .text "", .text ""]
          [.fragment columns, .fragment clause, .fragment lines]) := rfl
    refine .statement hparts ?_ hbuild
    simp only [List.forall_mem_cons]
    exact ⟨fun _ => hcolumns, fun _ => hclause, fun _ => hlines, fun _ h => by cases h⟩
  have hleaves : target.leaves = [.name (.text "a"), .name (.text "b"), .bound (.int 1),
    .bound (.list 0 [.int 2]), .bound (.text "x"), .verbatim (.text "y")] := rfl
  have hverbatim : ∀ value, .verbatim value ∈ target.leaves →
      ∃ s, (verbatimText {} value).answer = .ok s := by
    intro value hvalue
    obtain rfl : value = .text "y" := by simpa [hleaves] using hvalue
    exact ⟨"y", rfl⟩
  have hescape : fields.get? (.text "escape") = some (.value .null) := by cbv
  have hescapeId : fields.get? (.text "escape_id") = none := by cbv
  have hfalsy : ∀ setting, fields.get? (.text "escape") = some setting →
      setting.isTruthy = true → setting.toLiteralEscaper.isCallable = true := by
    intro setting hget htruthy
    cases hescape.symm.trans hget
    cases htruthy
  have hmissing : ∀ setting, fields.get? (.text "escape_id") = some setting →
      setting.isTruthy = true → setting.toIdentifierEscaper.WritesTexts {} := by
    intro setting hget _
    cases hescapeId.symm.trans hget
  have hmarks : fields.get? withParametersKey ≠ some (.value (.bool false)) := by
    have hnone : fields.get? withParametersKey = none := by cbv
    rw [hnone]
    exact fun h => by cases h
  have hwritable : ∀ value, .bound value ∈ target.leaves → value.HasLiteral {} := by
    intro value hvalue
    obtain rfl | rfl | rfl : value = .int 1 ∨ value = .list 0 [.int 2] ∨ value = .text "x" := by
      simpa [hleaves] using hvalue
    · exact ⟨by decide +kernel, fun h => by cases h⟩
    · exact ⟨rfl, fun _ => ⟨_, rfl⟩⟩
    · exact ⟨rfl, fun h => by cases h⟩
  refine ⟨⟨hbuilt, hverbatim, rfl, hfalsy, hmissing⟩, hmarks, fun node hnode => ⟨?_, ?_⟩⟩
  · exact (built_renders hbuilt hverbatim rfl hfalsy hmissing).1 hmarks node hnode
  · refine (((built_renders hbuilt hverbatim rfl ?_ ?_).2 rfl ?_) node hnode).1.2 ?_
    · exact fun _ hget => by cases hget
    · exact fun _ hget => by cases hget
    · exact fun _ hget => by cases hget
    · exact fun value hvalue => hwritable value (Value.leaves_subset hnode hvalue)

private theorem isOverlong_thousands :
    (Value.decimal 0 (.finite false 1 4300)).isOverlong = true := by
  have hvalue : (Value.decimal 0 (.finite false 1 4300)).rational? =
      some (((10 ^ mostDigits : Nat) : Int) : ℚ) := by
    show (Decimal.finite false 1 (mostDigits : Int)).toRat? = _
    rw [Decimal.toRat?_finite, signed, zpow_natCast]
    push_cast
    simp
  rw [Value.isOverlong_of_whole hvalue, Int.natAbs_natCast, isOverlong_iff]

/-- A whole number of one digit too many, which is no structured value, keeps a statement from being
rendered with literals. -/
theorem Options.built_fails :
    let number : Value := .decimal 0 (.finite false 1 4300)
    let target : Value := .fragment (.template 0 .statement [.text "SELECT ", .text ""] [number])
    let options : Options := .mapping 0 [(withParametersKey, .value (.bool false))]
    target.IsBuilt ∧ target.leaves = [.bound number] ∧ number.isStructured = false ∧
    Options.absent.render {} target =
      .ok (.result { sql := .text "SELECT ?", bindings := [number] }) ∧
    options.render {} target = .error .badValue := by
  intro number target options
  have hbuilt : target.IsBuilt := by
    have hparts : (Value.list 0 [.text "SELECT ", .text ""]).items? =
        some (["SELECT ", ""].map .text) := rfl
    have hbuild : Fragment.statement 0 (.list 0 [.text "SELECT ", .text ""]) [number] =
        .ok (.template 0 .statement [.text "SELECT ", .text ""] [number]) := rfl
    refine .statement hparts ?_ hbuild
    intro value hvalue hplain
    rw [List.mem_singleton.1 hvalue] at hplain
    cases hplain
  refine ⟨hbuilt, rfl, rfl, rfl, ?_⟩
  rw [Options.render_of_fields rfl]
  let context := Context.ofFields [(withParametersKey, .value (.bool false))]
  have hescape : context.escape = .standard := rfl
  have hwrite : (context.escape.write {} number context.timezone fun _ => json {} number).answer =
      .error .badValue := by
    rw [hescape, LiteralEscaper.write, Literal.scalar?_eq_error_iff.2 ⟨isOverlong_thousands, rfl⟩]
    rfl
  have hbind : (context.bind {} number fun _ => json {} number).answer = .error .badValue := by
    rw [Context.bind, if_neg (by decide)]
    exact answer_bind_eq_error.2 (.inl hwrite)
  change (resolve {} context 0
    (.template 0 .statement [.text "SELECT ", .text ""] [number])).answer = _
  have hplain : number.isPlain = true := rfl
  rw [resolve]
  refine answer_bind_eq_error.2 (.inr ⟨(), rfl, answer_bind_eq_error.2 (.inl ?_)⟩)
  rw [promotedEach_cons, promote, if_pos hplain, Context.parameter]
  refine answer_bind_eq_error.2 (.inl (answer_bind_eq_error.2 (.inl ?_)))
  exact answer_bind_eq_error.2 (.inr ⟨(), rfl, hbind⟩)

end SqlFragments
