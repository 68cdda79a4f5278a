import SqlFragments.Fragment.Build
import SqlFragments.Proofs.Render.Clause
import SqlFragments.Proofs.Render.Congruence
import SqlFragments.Proofs.Render.Inlines
import SqlFragments.Proofs.Text.Joined

/-!
# Rows

A row is a template with a separator between any two of its values and nothing around them. Its
first part is empty, so no indentation is taken away from the separators, and where its values come
to tight texts nothing is trimmed: the row is the texts joined. A list of values agrees with the row of
its parameters in both ways to render.
-/

namespace SqlFragments

open Outcome Text

variable {env : Environment} {context : Context}

/-! ## Parts of a row -/

def rowParts (separator : String) : Nat → List String
  | 0 => [""]
  | count + 1 => "" :: (List.replicate count separator ++ [""])

@[simp]
theorem length_rowParts (separator : String) (count : Nat) :
    (rowParts separator count).length = count + 1 := by
  cases count <;> simp [rowParts]

private theorem undented_rowParts (separator : String) (count : Nat) :
    Undented (rowParts separator count) := by
  intro c hc
  cases count <;> cases hc

private theorem weave_behind {result : Result} {text : String} (hresult : result.sql = .text text)
    {results : List Result} {texts : List String}
    (htexts : results.map Result.sql = texts.map .text) (separator front : String) :
    weave ((result :: results).map .ok) (front :: (List.replicate results.length separator ++ [""])) =
      .ok (front ++ separator.intercalate (text :: texts)) := by
  induction results generalizing result text texts front with
  | nil =>
    obtain rfl : texts = [] := by simpa using htexts
    simp [weave, interleave, hresult]
  | cons next results ih =>
    obtain ⟨first, rest, rfl, hfirst, hrest⟩ := List.map_eq_cons_iff.1 htexts.symm
    have htext : textOf (.ok result) = .ok text := by
      obtain ⟨sql, bindings, method, hooks⟩ := result
      cases hresult
      rfl
    have hbehind := ih hfirst.symm hrest.symm separator
    rw [List.length_cons, List.replicate_succ, List.cons_append, List.map_cons,
      weave_cons _ _ _ (List.cons_ne_nil _ _), htext, hbehind]
    show Except.ok (front ++ (text ++ (separator ++ _))) = _
    rw [String.intercalate_cons_cons, String.append_assoc]

theorem strip_of_tight {s : String} (h : Tight s.toList) : strip s = s := by
  apply strip_of_unpadded
  rintro c (hc | hc)
  · rw [List.head?_eq_some_head h.ne_nil] at hc
    exact Option.some.inj hc ▸ h.head
  · rw [List.getLast?_eq_getLast_of_ne_nil h.ne_nil] at hc
    exact Option.some.inj hc ▸ h.last

theorem compose_rowParts {results : List Result} {texts : List String}
    (htexts : results.map Result.sql = texts.map .text) (htight : ∀ s ∈ texts, Tight s.toList)
    (separator : String) :
    compose ((rowParts separator results.length).map .text) (results.map .ok) context =
      .ok (context.composed (results.flatMap Result.bindings) (separator.intercalate texts)) := by
  have hbindings : boundValues (results.map .ok) = results.flatMap Result.bindings := by
    rw [boundValues, List.flatMap_map]
  rw [compose_of_undented (undented_rowParts separator results.length), hbindings]
  cases results with
  | nil =>
    obtain rfl : texts = [] := by simpa using htexts
    rfl
  | cons result results =>
    obtain ⟨text, rest, rfl, htext, hrest⟩ := List.map_eq_cons_iff.1 htexts.symm
    have hjoined : strip (separator.intercalate (text :: rest)) =
        separator.intercalate (text :: rest) := by
      apply strip_of_tight
      rw [String.toList_intercalate]
      apply tight_intercalate _ (by simp)
      simpa using htight
    rw [List.length_cons, rowParts, weave_behind htext.symm hrest.symm, String.empty_append]
    show Except.ok (context.composed _ (strip (separator.intercalate (text :: rest)))) = _
    rw [hjoined]

def Fragment.row (label : Label) (separator : String) (fragments : List Fragment) : Fragment :=
  .template label .statement ((rowParts separator fragments.length).map .text)
    (fragments.map .fragment)

theorem Fragment.statement_row (label strings : Label) (separator : String)
    {fragments : List Fragment} {count : Nat} (hcount : fragments.length = count) :
    Fragment.statement label (.list strings ((rowParts separator count).map .text))
        (fragments.map .fragment) = .ok (Fragment.row label separator fragments) := by
  have hparts : ((rowParts separator count).map Value.text).length =
      (fragments.map Value.fragment).length + 1 := by simp [hcount]
  rw [statement, literalParts, row, hcount]
  simp only [Value.items?, if_pos hparts]
  rfl

/-! ## Values of a row -/

private theorem map_promoted_fragment (fragments : List Fragment) :
    (fragments.map Value.fragment).map Value.promoted = fragments.map Value.fragment := by
  rw [List.map_map]
  rfl

theorem Context.Calls.answer_template_values (hcalls : context.Calls) (label : Label)
    (form : TemplateForm) (strings values : List Value) :
    (evaluate env context (.fragment (.template label form strings values))).answer = do
      let rendered ← ((values.map Value.promoted).mapM (evaluate env context)).answer
      let result ← compose strings (rendered.map Rendered.toResult) context
      return .result result := by
  rw [evaluate, resolve, answer_bind, answer_enter, hcalls.allow rfl, promotedEach_eq_mapM]
  simp only [answer_bind, answer_ofExcept, answer_pure]
  rfl

/-- A row of fragments that come to tight texts is these texts joined. -/
theorem Context.Calls.answer_row (hcalls : context.Calls) {fragments : List Fragment}
    {results : List Result} {texts : List String}
    (hresults : ((fragments.map Value.fragment).mapM (evaluate env context)).answer =
      .ok (results.map .result))
    (htexts : results.map Result.sql = texts.map .text) (htight : ∀ s ∈ texts, Tight s.toList)
    (label : Label) (separator : String) :
    (evaluate env context (.fragment (.row label separator fragments))).answer =
      .ok (.result (context.composed (results.flatMap Result.bindings)
        (separator.intercalate texts))) := by
  have hlength : fragments.length = results.length := by
    simpa using (answer_mapM_eq_ok.1 hresults).length_eq
  have hresult : (results.map Rendered.result).map Rendered.toResult = results.map .ok := by
    rw [List.map_map]
    rfl
  rw [Fragment.row, hcalls.answer_template_values, map_promoted_fragment, hresults]
  show (compose _ ((results.map Rendered.result).map Rendered.toResult) context).map _ = _
  rw [hresult, hlength, compose_rowParts htexts htight]
  rfl

theorem Context.Calls.answer_row_error (hcalls : context.Calls) {fragments : List Fragment}
    {cause : Failure}
    (h : ((fragments.map Value.fragment).mapM (evaluate env context)).answer = .error cause)
    (label : Label) (separator : String) :
    (evaluate env context (.fragment (.row label separator fragments))).answer = .error cause := by
  rw [Fragment.row, hcalls.answer_template_values, map_promoted_fragment, h]
  rfl

/-! ## Lists of values -/

theorem Context.Calls.answer_parameter (hcalls : context.Calls) (value : Value) :
    (evaluate env context (.fragment (.parameter value))).answer =
      (context.bind env value fun _ => json env value).answer.map Rendered.result := by
  rw [evaluate, resolve, answer_bind, Context.parameter, answer_bind, answer_enter,
    hcalls.allow rfl]
  rfl

private theorem Context.Calls.answer_parameterList (hcalls : context.Calls) (values : List Value)
    (separator : Value) :
    (evaluate env context (.fragment (.parameterList values separator))).answer =
      (renderList env context separator values).answer.map Rendered.result := by
  rw [evaluate, resolve_parameterList, answer_bind, answer_enter, hcalls.allow rfl]
  show ((renderList env context separator values) >>= _).answer = _
  rw [answer_bind]
  rfl

private theorem Context.Calls.answer_marks (hcalls : context.Calls)
    (hparam : context.withParameters = true) (values : List Value) (separator : String) :
    (evaluate env context (.fragment (.parameterList values (.text separator)))).answer =
      .ok (.result
        { sql := .text (separator.intercalate (values.map fun _ => "?")), bindings := values }) := by
  have hjoin := joinWith_texts separator (values.map fun _ => "?")
  rw [List.map_map] at hjoin
  rw [hcalls.answer_parameterList, renderList, if_pos hparam, answer_bind, answer_ofExcept]
  show (joinWith _ (values.map (Value.text ∘ fun _ => "?")) >>= _).map _ = _
  rw [hjoin]
  rfl

private theorem Context.Calls.answer_literals (hcalls : context.Calls)
    (hparam : ¬ context.withParameters = true) (values : List Value) (separator : String) :
    (evaluate env context (.fragment (.parameterList values (.text separator)))).answer = do
      let pieces ← (literalEach env context values).answer
      let sql ← joinWith (.text separator) pieces
      return .result { sql := sql } := by
  rw [hcalls.answer_parameterList, renderList, if_neg hparam, answer_bind]
  show ((literalEach env context values >>= _).answer).map _ = _
  rw [answer_bind]
  cases (literalEach env context values).answer with
  | error cause => rfl
  | ok pieces =>
    show (Outcome.answer (ofExcept (joinWith (.text separator) pieces) >>= _)).map _ =
      (joinWith (.text separator) pieces >>= _)
    rw [answer_bind, answer_ofExcept]
    cases joinWith (.text separator) pieces <;> rfl

private theorem Context.Calls.answer_literals_of_writes (hcalls : context.Calls)
    (hparam : ¬ context.withParameters = true) {values : List Value} {literals : List String}
    (h : List.Forall₂ (context.WritesAs env) values literals) (separator : String) :
    (evaluate env context (.fragment (.parameterList values (.text separator)))).answer =
      .ok (.result { sql := .text (separator.intercalate literals) }) := by
  have hpieces : (literalEach env context values).answer = .ok (literals.map .text) := by
    rw [literalEach_eq_mapM, answer_mapM_eq_ok, List.forall₂_map_right_iff]
    exact h
  rw [hcalls.answer_literals hparam, hpieces]
  show (joinWith (.text separator) (literals.map .text) >>= _) = _
  rw [joinWith_texts]
  rfl

/-! ## Lists and rows of values -/

/-- Two things that come to results with the same text and the same bindings. -/
def Rendered.Agreeing (r s : Rendered) : Prop :=
  ∃ p q, r = .result p ∧ s = .result q ∧ p.Congruent q

private def ListAgrees (env : Environment) (context : Context) (label : Label)
    (values : List Value) (separator : String) : Prop :=
  Matching Rendered.Agreeing
    (evaluate env context (.fragment (.parameterList values (.text separator))))
    (evaluate env context (.fragment (.row label separator (values.map .parameter))))

private theorem Context.Calls.listAgrees_of_marks (hcalls : context.Calls)
    (hparam : context.withParameters = true) (label : Label) (values : List Value)
    (separator : String) : ListAgrees env context label values separator := by
  let bound (value : Value) : Result := { sql := .text "?", bindings := [value] }
  have hresults : (((values.map Fragment.parameter).map Value.fragment).mapM
      (evaluate env context)).answer = .ok ((values.map bound).map .result) := by
    rw [answer_mapM_eq_ok, List.map_map, List.map_map, List.forall₂_map_left_iff,
      List.forall₂_map_right_iff, List.forall₂_same]
    intro value _
    show (evaluate env context (.fragment (.parameter value))).answer = _
    rw [hcalls.answer_parameter, Context.bind, if_pos hparam]
    rfl
  have hmarks : (values.map bound).map Result.sql = (values.map fun _ => "?").map .text := by
    rw [List.map_map, List.map_map]
    rfl
  have htight : ∀ s ∈ values.map (fun _ => "?"), Tight s.toList := by
    intro s hs
    obtain ⟨_, _, rfl⟩ := List.mem_map.1 hs
    exact .of_forall (by simp) (by simp [isBlank])
  have hbindings : (values.map bound).flatMap Result.bindings = values := by
    simp [bound, List.flatMap_map]
  exact .ok (hcalls.answer_marks hparam values separator)
    (hcalls.answer_row hresults hmarks htight label separator)
    ⟨_, _, rfl, rfl, rfl, hbindings.symm⟩

private theorem Context.Calls.matching_literal (hcalls : context.Calls)
    (hparam : ¬ context.withParameters = true) (value : Value) :
    Matching (fun piece r => Rendered.result { sql := piece } = r)
      (context.escape.write env value context.timezone fun _ => json env value)
      (evaluate env context (.fragment (.parameter value))) := by
  have hparameter : (evaluate env context (.fragment (.parameter value))).answer = _ :=
    hcalls.answer_parameter value
  rw [Context.bind, if_neg hparam, answer_bind] at hparameter
  cases hwrite : (context.escape.write env value context.timezone fun _ =>
      json env value).answer with
  | error cause =>
    rw [hwrite] at hparameter
    exact .error hwrite hparameter
  | ok piece =>
    rw [hwrite] at hparameter
    exact .ok hwrite hparameter rfl

private theorem Context.Calls.listAgrees_of_literals (hcalls : context.Calls)
    (hparam : ¬ context.withParameters = true) (htight : context.WritesTight env) (label : Label)
    (values : List Value) (separator : String) :
    ListAgrees env context label values separator := by
  have hwrites : Matching (List.Forall₂ fun piece r => Rendered.result { sql := piece } = r)
      (literalEach env context values)
      (((values.map Fragment.parameter).map Value.fragment).mapM (evaluate env context)) := by
    rw [literalEach_eq_mapM]
    apply Matching.mapM
    rw [List.map_map, List.forall₂_map_right_iff, List.forall₂_same]
    exact fun value _ => hcalls.matching_literal hparam value
  cases hwrites with
  | error hpieces hrow =>
    have hlist : (evaluate env context
        (.fragment (.parameterList values (.text separator)))).answer = _ :=
      hcalls.answer_literals hparam values separator
    rw [hpieces] at hlist
    exact .error hlist (hcalls.answer_row_error hrow label separator)
  | ok hpieces hrow related =>
    obtain ⟨literals, rfl, hwritten, htights⟩ := AreWritten.of_answer htight hpieces
    let written (literal : String) : Result := { sql := .text literal }
    rw [← List.forall₂_map_left_iff, List.forall₂_eq_eq_eq, List.map_map] at related
    have hresults : (literals.map written).map Rendered.result = _ := List.map_map.trans related
    have hsqls : (literals.map written).map Result.sql = literals.map .text := by
      rw [List.map_map]
      rfl
    have hnone : (literals.map written).flatMap Result.bindings = [] := by
      simp [written, List.flatMap_map]
    rw [← hresults] at hrow
    exact .ok (hcalls.answer_literals_of_writes hparam hwritten separator)
      (hcalls.answer_row hrow hsqls (List.forall_mem_map.1 htights) label separator)
      ⟨_, _, rfl, rfl, rfl, hnone.symm⟩

private theorem Context.Calls.listAgrees (hcalls : context.Calls)
    (hescape : context.escape = .standard ∨ context.WritesTight env) (label : Label)
    (values : List Value) (separator : String) :
    ListAgrees env context label values separator := by
  by_cases hparam : context.withParameters = true
  · exact hcalls.listAgrees_of_marks hparam label values separator
  · have htight : context.WritesTight env := by
      rcases hescape with hstandard | htight
      · exact Context.writesTight_of_standard hstandard
      · exact htight
    exact hcalls.listAgrees_of_literals hparam htight label values separator

/-- A list of values has a placeholder for each value, or its literal, with the separator between
them. It has the text and the bindings of the row of their parameters, whatever the separator is, or
both fail for one cause. The literals are those of the library or are tight. -/
theorem Options.render_parameters_eq_row {options : Options}
    (hescape : ∀ context, options.normalize = .ok context →
      context.escape = .standard ∨ context.WritesTight env)
    (given strings label : Label) (values : List Value) (separator : String) :
    ∃ list row,
      Fragment.parameters (.list given values) (some (.text separator)) = .ok list ∧
      Fragment.statement label (.list strings ((rowParts separator values.length).map .text))
        ((values.map Fragment.parameter).map .fragment) = .ok row ∧
      (∀ context, options.normalize = .ok context → context.Calls →
        (context.withParameters = true → options.render env (.fragment list) = .ok (.result {
          sql := .text (separator.intercalate (values.map fun _ => "?"))
          bindings := values })) ∧
        (context.withParameters = false → ∀ literals,
          List.Forall₂ (context.WritesAs env) values literals →
          options.render env (.fragment list) =
            .ok (.result { sql := .text (separator.intercalate literals) }))) ∧
      ((∃ p q, options.render env (.fragment list) = .ok (.result p) ∧
          options.render env (.fragment row) = .ok (.result q) ∧ p.Congruent q) ∨
        ∃ cause, options.render env (.fragment list) = .error cause ∧
          options.render env (.fragment row) = .error cause) := by
  have hcount : (values.map Fragment.parameter).length = values.length := List.length_map _
  have hrow := Fragment.statement_row label strings separator hcount
  refine ⟨.parameterList values (.text separator), _, rfl, hrow, ?_, ?_⟩
  · intro context hcontext hcalls
    rw [render_of_normalize hcontext]
    refine ⟨fun hparam => hcalls.answer_marks hparam values separator, ?_⟩
    intro hparam literals hwritten
    exact hcalls.answer_literals_of_writes (by simp [hparam]) hwritten separator
  · cases hnormalize : options.normalize with
    | error cause =>
      have hfails := render_of_normalize_error hnormalize env
      exact .inr ⟨cause, hfails _, hfails _⟩
    | ok context =>
      rw [render_of_normalize hnormalize, render_of_normalize hnormalize]
      rcases context.calls_or with hcalls | ⟨cause, hrefused⟩
      · cases hcalls.listAgrees (hescape context hnormalize) label values separator with
        | error hlist hrow => exact .inr ⟨_, hlist, hrow⟩
        | ok hlist hrow related =>
          obtain ⟨p, q, rfl, rfl, hsame⟩ := related
          exact .inl ⟨p, q, hlist, hrow, hsame⟩
      · exact .inr ⟨cause, answer_evaluate_of_error (hrefused _),
          answer_evaluate_of_error (hrefused _)⟩

/-- Literals of nothing, of a text and of a statement, with a line break and spaces between them. -/
theorem Options.render_parameters_eq_row_indented :
    let options : Options := .mapping 0 [(.text "with_parameters", .value (.bool false))]
    let inner : Fragment := .template 2 .statement [.text "  a = ", .text ""] [.int 1]
    let values : List Value := [.null, .text " it's ", .fragment inner]
    let list : Fragment := .parameterList values (.text "\n  , ")
    let row : Fragment := .template 0 .statement ((rowParts "\n  , " 3).map .text)
      (values.map fun value => .fragment (.parameter value))
    (∀ context, options.normalize = .ok context →
      context.escape = .standard ∨ context.WritesTight {}) ∧
    ∃ p q, options.render {} (.fragment list) = .ok (.result p) ∧
      options.render {} (.fragment row) = .ok (.result q) ∧
      p.sql = .text "NULL\n  , ' it\\'s '\n  , \"a = 1\"" ∧ p.Congruent q := by
  intro options inner values list row
  have hescape : ∀ context, options.normalize = .ok context →
      context.escape = .standard ∨ context.WritesTight {} := by
    intro context hcontext
    cases hcontext
    exact .inl rfl
  have hlist : options.render {} (.fragment list) = .ok (.result
      { sql := .text "NULL\n  , ' it\\'s '\n  , \"a = 1\"" }) := by cbv
  obtain ⟨_, _, hbuilt, hbuiltRow, -, hagree⟩ :=
    render_parameters_eq_row hescape 0 1 0 values "\n  , "
  cases hbuilt
  cases hbuiltRow
  rcases hagree with ⟨p, q, hp, hq, hsame⟩ | ⟨cause, hp, -⟩
  · refine ⟨hescape, p, q, hp, hq, ?_, hsame⟩
    cases hlist.symm.trans hp
    rfl
  · cases hlist.symm.trans hp

end SqlFragments
