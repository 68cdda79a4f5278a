import SqlFragments.Proofs.Identifier.Tight
import SqlFragments.Proofs.Render.Row
import SqlFragments.Render.Recorder

/-!
# Lists of names

A list hands each of its names to the escaper, a star as well. An identifier that is a star is taken
over as it is and no escaper sees it. So a list agrees with the row of its identifiers where the
escaper writes a star as a star, as those of the library do, and nowhere else.
-/

namespace SqlFragments

open Outcome Text

variable {env : Environment} {context : Context}

/-! ## Names that are written -/

namespace IdentifierEscaper

variable {escaper : IdentifierEscaper} {name : String}

def Writes (env : Environment) (escaper : IdentifierEscaper) (name : String) : Prop :=
  ∃ written, (escaper.write env (.text name)).answer = .ok written

def textFor (env : Environment) (escaper : IdentifierEscaper) (name : String) : String :=
  match (escaper.write env (.text name)).answer with
  | .ok (.text s) => s
  | _ => ""

theorem WritesTight.answer_write (htight : escaper.WritesTight env) (h : escaper.Writes env name) :
    (escaper.write env (.text name)).answer = .ok (.text (escaper.textFor env name)) ∧
      Tight (escaper.textFor env name).toList := by
  obtain ⟨written, hwrite⟩ := h
  obtain ⟨s, rfl, hs⟩ := htight name written hwrite
  have htext : escaper.textFor env name = s := by rw [textFor, hwrite]
  rw [htext]
  exact ⟨hwrite, hs⟩

def identifierText (env : Environment) (escaper : IdentifierEscaper) (name : String) : String :=
  if name = "*" then "*" else escaper.textFor env name

end IdentifierEscaper

/-- The identifier of a name; a star alone is taken over as it is. -/
def Fragment.ofName (name : String) : Fragment :=
  if name = "*" then .raw (.text name) else .identifier name

theorem Fragment.mapM_named (names : List String) :
    (names.map Value.text).mapM Fragment.named = .ok (names.map Fragment.ofName) := by
  induction names with
  | nil => rfl
  | cons name names ih =>
    rw [List.map_cons, List.mapM_cons, ih]
    rfl

namespace Context.Calls

variable (hcalls : context.Calls) {names : List String} {name : String}

include hcalls

/-! ## The list -/

private theorem answer_columnList (columns : List Value) (separator : String) :
    (evaluate env context (.fragment (.columnList columns (.text separator)))).answer = do
      let pieces ← (columns.mapM (context.escapeId.write env)).answer
      let sql ← joinWith (.text separator) pieces
      return .result { sql := sql } := by
  rw [evaluate, resolve, answer_bind, answer_enter, hcalls.allow rfl]
  show ((columns.mapM (context.escapeId.write env)) >>= _).answer = _
  rw [answer_bind]
  congr 1
  funext pieces
  rw [answer_bind, answer_ofExcept]
  rfl

private theorem answer_columnList_of_writes (htight : context.escapeId.WritesTight env)
    (h : ∀ name ∈ names, context.escapeId.Writes env name) (separator : String) :
    (evaluate env context (.fragment (.columnList (names.map .text) (.text separator)))).answer =
      .ok (.result
        { sql := .text (separator.intercalate (names.map (context.escapeId.textFor env))) }) := by
  have hpieces : ((names.map Value.text).mapM (context.escapeId.write env)).answer =
      .ok ((names.map (context.escapeId.textFor env)).map .text) := by
    rw [answer_mapM_eq_ok, List.map_map, List.forall₂_map_left_iff, List.forall₂_map_right_iff,
      List.forall₂_same]
    exact fun name hname => (htight.answer_write (h name hname)).1
  have hjoin := joinWith_texts separator (names.map (context.escapeId.textFor env))
  rw [hcalls.answer_columnList, hpieces]
  show (joinWith (.text separator) _ >>= _) = _
  rw [hjoin]
  rfl

private theorem answer_columnList_error (hname : name ∈ names)
    (h : ¬ context.escapeId.Writes env name) (separator : String) :
    ∃ cause, (evaluate env context (.fragment (.columnList (names.map .text)
      (.text separator)))).answer = .error cause := by
  obtain ⟨cause, hcause⟩ := answer_mapM_error (List.mem_map_of_mem hname) h
  rw [hcalls.answer_columnList, hcause]
  exact ⟨cause, rfl⟩

/-! ## The row -/

private theorem answer_identifier (hstar : name ≠ "*") :
    (evaluate env context (.fragment (Fragment.ofName name))).answer =
      (context.escapeId.write env (.text name)).answer.map fun sql => .result { sql := sql } := by
  rw [Fragment.ofName, if_neg hstar, evaluate, resolve, answer_bind, answer_enter, hcalls.allow rfl]
  show ((context.escapeId.write env (.text name)) >>= _).answer = _
  rw [answer_bind]
  rfl

private theorem answer_star :
    (evaluate env context (.fragment (Fragment.ofName "*"))).answer =
      .ok (.result { sql := .text "*" }) := by
  rw [Fragment.ofName, if_pos rfl, evaluate, resolve_raw, answer_bind, answer_enter,
    hcalls.allow rfl]
  rfl

private theorem answer_ofName (htight : context.escapeId.WritesTight env)
    (h : name ≠ "*" → context.escapeId.Writes env name) :
    (evaluate env context (.fragment (Fragment.ofName name))).answer =
        .ok (.result { sql := .text (context.escapeId.identifierText env name) }) ∧
      Tight (context.escapeId.identifierText env name).toList := by
  by_cases hstar : name = "*"
  · have htext : context.escapeId.identifierText env name = "*" := if_pos hstar
    rw [htext, hstar]
    exact ⟨hcalls.answer_star, .of_forall (by simp) (by simp [isBlank])⟩
  · have htext : context.escapeId.identifierText env name = context.escapeId.textFor env name :=
      if_neg hstar
    obtain ⟨hwrite, hs⟩ := htight.answer_write (h hstar)
    rw [hcalls.answer_identifier hstar, hwrite, htext]
    exact ⟨rfl, hs⟩

private theorem answer_row_of_writes (htight : context.escapeId.WritesTight env)
    (h : ∀ name ∈ names, name ≠ "*" → context.escapeId.Writes env name) (label : Label)
    (separator : String) :
    ∃ p : Result, (evaluate env context
        (.fragment (.row label separator (names.map .ofName)))).answer = .ok (.result p) ∧
      p.sql = .text (separator.intercalate
        (names.map (context.escapeId.identifierText env))) ∧ p.bindings = [] := by
  let shown (name : String) : Result := { sql := .text (context.escapeId.identifierText env name) }
  have hresults : (((names.map Fragment.ofName).map Value.fragment).mapM
      (evaluate env context)).answer = .ok ((names.map shown).map .result) := by
    rw [answer_mapM_eq_ok, List.map_map, List.map_map, List.forall₂_map_left_iff,
      List.forall₂_map_right_iff, List.forall₂_same]
    exact fun name hname => (hcalls.answer_ofName htight (h name hname)).1
  have htexts : (names.map shown).map Result.sql =
      (names.map (context.escapeId.identifierText env)).map .text := by
    rw [List.map_map, List.map_map]
    rfl
  have htights : ∀ s ∈ names.map (context.escapeId.identifierText env), Tight s.toList := by
    intro s hs
    obtain ⟨name, hname, rfl⟩ := List.mem_map.1 hs
    exact (hcalls.answer_ofName htight (h name hname)).2
  have hnone : (names.map shown).flatMap Result.bindings = [] := by
    simp [shown, List.flatMap_map]
  exact ⟨_, hcalls.answer_row hresults htexts htights label separator, rfl, hnone⟩

private theorem answer_row_of_not_writes (hname : name ∈ names) (hstar : name ≠ "*")
    (h : ¬ context.escapeId.Writes env name) (label : Label) (separator : String) :
    ∃ cause, (evaluate env context
      (.fragment (.row label separator (names.map .ofName)))).answer = .error cause := by
  have hmem : Value.fragment (.ofName name) ∈ (names.map Fragment.ofName).map Value.fragment :=
    List.mem_map_of_mem (List.mem_map_of_mem hname)
  have hfails : ¬ ∃ r, (evaluate env context (.fragment (Fragment.ofName name))).answer = .ok r := by
    rintro ⟨r, hr⟩
    rw [hcalls.answer_identifier hstar] at hr
    obtain ⟨written, hwrite, -⟩ := Outcome.map_eq_ok.1 hr
    exact h ⟨written, hwrite⟩
  obtain ⟨cause, hcause⟩ := answer_mapM_error hmem hfails
  exact ⟨cause, hcalls.answer_row_error hcause label separator⟩

end Context.Calls

/-! ## The list and the row -/

/-- Two answers with the same text and the same bindings, or two failures. -/
def Agree (x y : Except Failure Rendered) : Prop :=
  (∃ p q : Result, x = .ok (.result p) ∧ y = .ok (.result q) ∧ p.Congruent q) ∨
    (∃ cause, x = .error cause) ∧ ∃ cause, y = .error cause

private theorem intercalate_textFor_eq_iff {escaper : IdentifierEscaper} {names : List String}
    (htight : escaper.WritesTight env) (h : ∀ name ∈ names, escaper.Writes env name)
    (separator : String) :
    separator.intercalate (names.map (escaper.textFor env)) =
        separator.intercalate (names.map (escaper.identifierText env)) ↔
      ("*" ∈ names → escaper.textFor env "*" = "*") := by
  have hlength : List.Forall₂ (fun long short => short.length ≤ long.length)
      ((names.map (escaper.textFor env)).map String.toList)
      ((names.map (escaper.identifierText env)).map String.toList) := by
    rw [List.map_map, List.map_map, List.forall₂_map_left_iff, List.forall₂_map_right_iff,
      List.forall₂_same]
    intro name hname
    show (escaper.identifierText env name).toList.length ≤ (escaper.textFor env name).toList.length
    by_cases hstar : name = "*"
    · have hvisible := (htight.answer_write (h name hname)).2.ne_nil
      rw [IdentifierEscaper.identifierText, if_pos hstar]
      exact List.length_pos_of_ne_nil hvisible
    · rw [IdentifierEscaper.identifierText, if_neg hstar]
  rw [← String.toList_inj, String.toList_intercalate, String.toList_intercalate,
    intercalate_eq_intercalate_iff hlength, List.map_inj_right (fun _ _ => String.toList_inj.1),
    List.map_inj_left]
  constructor
  · intro hsame hstar
    exact (hsame "*" hstar).trans (if_pos rfl)
  · intro hsame name hname
    rw [IdentifierEscaper.identifierText]
    split
    · next hstar =>
      subst hstar
      exact hsame hname
    · rfl

private theorem Context.Calls.agree_columns_iff (hcalls : context.Calls)
    (htight : context.escapeId.WritesTight env) (label : Label) (names : List String)
    (separator : String) :
    Agree
        (evaluate env context
          (.fragment (.columnList (names.map .text) (.text separator)))).answer
        (evaluate env context (.fragment (.row label separator (names.map .ofName)))).answer ↔
      ((∀ name ∈ names, name ≠ "*" → context.escapeId.Writes env name) → "*" ∈ names →
        (context.escapeId.write env (.text "*")).answer = .ok (.text "*")) := by
  by_cases hothers : ∀ name ∈ names, name ≠ "*" → context.escapeId.Writes env name
  · obtain ⟨q, hrow, hsql, hbindings⟩ := hcalls.answer_row_of_writes htight hothers label separator
    by_cases hstar : "*" ∈ names → context.escapeId.Writes env "*"
    · -- Everything is written, so it is the texts that decide.
      have hall : ∀ name ∈ names, context.escapeId.Writes env name := by
        intro name hname
        by_cases heq : name = "*"
        · subst heq
          exact hstar hname
        · exact hothers name hname heq
      have hlist := hcalls.answer_columnList_of_writes htight hall separator
      have htexts := intercalate_textFor_eq_iff htight hall separator
      have hwritten : ("*" ∈ names → context.escapeId.textFor env "*" = "*") ↔ ("*" ∈ names →
          (context.escapeId.write env (.text "*")).answer = .ok (.text "*")) := by
        refine forall_congr' fun hmem => ?_
        rw [(htight.answer_write (hall "*" hmem)).1, Except.ok.injEq, Value.text.injEq]
      rw [hlist, hrow, forall_prop_of_true hothers, ← hwritten, ← htexts]
      constructor
      · rintro (⟨p, q', hp, hq, hsame⟩ | ⟨⟨_, hfails⟩, -⟩)
        · cases hp
          cases hq
          exact Value.text.inj (hsame.sql.trans hsql)
        · cases hfails
      · intro heq
        exact .inl ⟨_, q, rfl, rfl, (congrArg Value.text heq).trans hsql.symm, hbindings.symm⟩
    · -- Only the list asks the escaper for a star, so only the list fails.
      obtain ⟨hmem, hfails⟩ := Classical.not_imp.1 hstar
      obtain ⟨cause, hlist⟩ := hcalls.answer_columnList_error hmem hfails separator
      rw [hlist, hrow]
      constructor
      · rintro (⟨_, _, hp, -⟩ | ⟨-, _, hq⟩)
        · cases hp
        · cases hq
      · intro hwritten
        exact absurd ⟨_, hwritten hothers hmem⟩ hfails
  · -- A name that is no star is not written, and both ask for it.
    refine iff_of_true ?_ fun h => absurd h hothers
    push Not at hothers
    obtain ⟨name, hname, hstar, hfails⟩ := hothers
    exact .inr ⟨hcalls.answer_columnList_error hname hfails separator,
      hcalls.answer_row_of_not_writes hname hstar hfails label separator⟩

private theorem Options.agree_columns_iff {options : Options}
    (htight : ∀ context, options.normalize = .ok context → context.escapeId.WritesTight env)
    (label : Label) (names : List String) (separator : String) :
    Agree
        (options.render env (.fragment (.columnList (names.map .text) (.text separator))))
        (options.render env (.fragment (.row label separator (names.map .ofName)))) ↔
      ∀ context, options.normalize = .ok context → context.Calls →
        (∀ name ∈ names, name ≠ "*" → context.escapeId.Writes env name) → "*" ∈ names →
        (context.escapeId.write env (.text "*")).answer = .ok (.text "*") := by
  cases hnormalize : options.normalize with
  | error cause =>
    have hfails := render_of_normalize_error hnormalize env
    exact iff_of_true (.inr ⟨⟨cause, hfails _⟩, cause, hfails _⟩) fun _ hcontext => by
      cases hcontext
  | ok context =>
    rw [render_of_normalize hnormalize, render_of_normalize hnormalize]
    simp only [Except.ok.injEq, forall_eq']
    rcases context.calls_or with hcalls | ⟨cause, hrefused⟩
    · rw [forall_prop_of_true hcalls]
      exact hcalls.agree_columns_iff (htight context hnormalize) label names separator
    · refine iff_of_true (.inr ⟨⟨cause, answer_evaluate_of_error (hrefused _)⟩, cause,
        answer_evaluate_of_error (hrefused _)⟩) fun hcalls => ?_
      cases (hrefused (.raw .null)).symm.trans (hcalls.allow rfl)

/-- A list of names whose escaper writes them all is what is written, with the separator between. It
agrees with the row of their identifiers under every escaper of the library. Under an escaper of the
user the two agree exactly where a star among the names is written as a star, unless another name
already fails in both. -/
theorem Options.render_columns_agree_iff {options : Options}
    (hescapeId : ∀ context, options.normalize = .ok context →
      context.escapeId.IsOwn ∨ context.escapeId.WritesTight env)
    (given strings label : Label) (names : List String) (separator : String) :
    ∃ list fragments row,
      Fragment.columns (.list given (names.map .text)) (some (.text separator)) = .ok list ∧
      (names.map Value.text).mapM Fragment.named = .ok fragments ∧
      Fragment.statement label (.list strings ((rowParts separator names.length).map .text))
        (fragments.map .fragment) = .ok row ∧
      (∀ context, options.normalize = .ok context → context.Calls →
        (∀ name ∈ names, context.escapeId.Writes env name) →
        options.render env (.fragment list) = .ok (.result
          { sql := .text (separator.intercalate (names.map (context.escapeId.textFor env))) })) ∧
      ((∀ context, options.normalize = .ok context → context.escapeId.IsOwn) →
        Agree (options.render env (.fragment list)) (options.render env (.fragment row))) ∧
      (Agree (options.render env (.fragment list)) (options.render env (.fragment row)) ↔
        ∀ context, options.normalize = .ok context → context.Calls →
          (∀ name ∈ names, name ≠ "*" → context.escapeId.Writes env name) → "*" ∈ names →
          (context.escapeId.write env (.text "*")).answer = .ok (.text "*")) := by
  have htight : ∀ context, options.normalize = .ok context →
      context.escapeId.WritesTight env := by
    intro context hcontext
    rcases hescapeId context hcontext with hown | htight
    · exact hown.writesTight
    · exact htight
  have hcount : (names.map Fragment.ofName).length = names.length := List.length_map _
  have hrow := Fragment.statement_row label strings separator hcount
  have hiff := agree_columns_iff htight label names separator
  refine ⟨.columnList (names.map .text) (.text separator), names.map Fragment.ofName, _, rfl,
    Fragment.mapM_named names, hrow, ?_, ?_, hiff⟩
  · intro context hcontext hcalls hwrites
    rw [render_of_normalize hcontext]
    exact hcalls.answer_columnList_of_writes (htight context hcontext) hwrites separator
  · intro hown
    exact hiff.2 fun context hcontext _ _ _ => (hown context hcontext).write_star

theorem IdentifierEscaper.writesTight_recordingBackticks (label : Label) :
    (recordingBackticks label).WritesTight env := by
  intro name written hwrite
  cases hwrite
  refine ⟨betweenBackticks name, rfl, ?_⟩
  rw [betweenBackticks, String.toList_ofList]
  exact .between _ rfl rfl

/-- Names with a point and with a backtick, between backticks, with a line break and a tab between
them. -/
theorem Options.render_columns_agree_iff_backticks :
    let options : Options :=
      .mapping 0 [(.text "escape_id", .identifierEscaper (.recordingBackticks 3))]
    let names := ["users.id", "a\x60b"]
    let list : Fragment := .columnList (names.map .text) (.text "\n\t")
    let row : Fragment := .template 0 .statement ((rowParts "\n\t" 2).map .text)
      ((names.map Fragment.ofName).map .fragment)
    (∀ context, options.normalize = .ok context →
      context.escapeId.IsOwn ∨ context.escapeId.WritesTight {}) ∧
    options.render {} (.fragment list) = .ok (.result
      { sql := .text "\x60users\x60.\x60id\x60\n\t\x60a\x60\x60b\x60" }) ∧
    Agree (options.render {} (.fragment list)) (options.render {} (.fragment row)) := by
  intro options names list row
  have hescapeId : ∀ context, options.normalize = .ok context →
      context.escapeId.IsOwn ∨ context.escapeId.WritesTight {} := by
    intro context hcontext
    cases hcontext
    exact .inr (IdentifierEscaper.writesTight_recordingBackticks 3)
  have hlist : options.render {} (.fragment list) = .ok (.result
      { sql := .text "\x60users\x60.\x60id\x60\n\t\x60a\x60\x60b\x60" }) := by cbv
  have hstar : "*" ∉ names := by decide
  obtain ⟨_, _, _, hbuilt, hnamed, hbuiltRow, -, -, hagree⟩ :=
    render_columns_agree_iff hescapeId 0 1 0 names "\n\t"
  cases hbuilt
  cases hnamed
  cases hbuiltRow
  exact ⟨hescapeId, hlist, hagree.2 fun _ _ _ _ hmem => absurd hmem hstar⟩

/-- Between backticks a star in a list is the name of one column, and an identifier is all of them. -/
theorem Options.render_columns_ne_backticks :
    let options : Options :=
      .mapping 0 [(.text "escape_id", .identifierEscaper (.recordingBackticks 3))]
    let names : List Value := [.text "id", .text "*"]
    (∀ context, options.normalize = .ok context → context.escapeId.WritesTight {}) ∧
    ∃ list fragments row,
      Fragment.columns (.list 0 names) none = .ok list ∧
      names.mapM Fragment.named = .ok fragments ∧
      Fragment.statement 0 (.list 1 ((rowParts ", " 2).map .text)) (fragments.map .fragment) =
        .ok row ∧
      options.render {} (.fragment list) = .ok (.result { sql := .text "\x60id\x60, \x60*\x60" }) ∧
      options.render {} (.fragment row) = .ok (.result { sql := .text "\x60id\x60, *" }) := by
  intro options names
  have htight : ∀ context, options.normalize = .ok context →
      context.escapeId.WritesTight {} := by
    intro context hcontext
    cases hcontext
    exact IdentifierEscaper.writesTight_recordingBackticks 3
  refine ⟨htight, .columnList names (.text ", "), [.identifier "id", .raw (.text "*")],
    .template 0 .statement ((rowParts ", " 2).map .text)
      [.fragment (.identifier "id"), .fragment (.raw (.text "*"))], rfl, rfl, rfl, ?_, ?_⟩
  · cbv
  · cbv

end SqlFragments
