import SqlFragments.Proofs.Outcome
import SqlFragments.Proofs.Render.Steps

/-!
# Renders compared

A render in one environment compared with the same render in another. A comparison relates
outcomes and says which trees it is about: those that are rendered, and those that are written out
as text. When it holds of the parts that renders are made of, it holds of whole renders.
-/

namespace SqlFragments

open Outcome

/-- Two sorts of things, those that are rendered and those that are written out, to which the parts
of a thing belong if it does. -/
structure Parts (Within Writable : Value → Prop) : Prop where
  null : Writable .null
  bool (b : Bool) : Writable (.bool b)
  text (s : String) : Writable (.text s)
  list {label : Label} {items : List Value} (h : Writable (.list label items)) :
    ∀ value ∈ items, Writable value
  tuple {items : List Value} (h : Writable (.tuple items)) : ∀ value ∈ items, Writable value
  dict {label : Label} {entries : List (Value × Value)} (h : Writable (.dict label entries)) :
    ∀ entry ∈ entries, Writable entry.2
  written {f : Fragment} (h : Writable (.fragment f)) : Within (.fragment f)
  raw {value : Value} (h : Within (.fragment (.raw value))) : Writable value
  parameter {value : Value} (h : Within (.fragment (.parameter value))) : Writable value
  parameterList {values : List Value} {separator : Value}
    (h : Within (.fragment (.parameterList values separator))) : ∀ value ∈ values, Writable value
  columnList {columns : List Value} {separator : Value}
    (h : Within (.fragment (.columnList columns separator))) : ∀ column ∈ columns, Writable column
  lines {members : List Value} {separator : Value}
    (h : Within (.fragment (.lines members separator))) :
    separator.takesUp = false ∧ ∀ member ∈ members, Within member
  clause {strings : List Value} {value : Value} (h : Within (.fragment (.clause strings value))) :
    Within value
  template {label : Label} {form : TemplateForm} {strings values : List Value}
    (h : Within (.fragment (.template label form strings values))) :
    ∀ value ∈ values, if value.isPlain then Writable value else Within value
  deferred {label : Label} {target : Value} {assigned : List (String × Value)}
    (h : Within (.fragment (.deferred label target assigned))) : Within target

/-- A comparison of renders in two environments. -/
structure Comparison (env env' : Environment) where
  Related {α : Type} : Outcome α → Outcome α → Prop
  Admits : Context → Prop
  Within : Value → Prop
  Writable : Value → Prop
  parts : Parts Within Writable
  ofExcept {α : Type} (answer : Except Failure α) : Related (.ofExcept answer) (.ofExcept answer)
  bind {α β : Type} {x y : Outcome α} {f g : α → Outcome β} (first : Related x y)
    (next : ∀ a, x.answer = .ok a → Related (f a) (g a)) : Related (x >>= f) (y >>= g)
  leafRendered (label : Label) : Related (.emit (.leafRendered label)) (.emit (.leafRendered label))
  announce {context : Context} (hcontext : Admits context) (kindName : String) :
    Related (.emit (context.announcement kindName)) (.emit (context.announcement kindName))
  inlined : Admits .inlined
  inline {f : Fragment} (hf : Writable (.fragment f))
    (hrender : Related (resolve env .inlined 0 f) (resolve env' .inlined 0 f)) :
    Related (env.inline f fun _ => resolve env .inlined 0 f)
      (env'.inline f fun _ => resolve env' .inlined 0 f)
  write {context : Context} (hcontext : Admits context) {value : Value} (hvalue : Writable value)
    (hjson : Related (json env value) (json env' value)) :
    Related (context.escape.write env value context.timezone fun _ => json env value)
      (context.escape.write env' value context.timezone fun _ => json env' value)
  writeName {context : Context} (hcontext : Admits context) {name : Value} (hname : Writable name) :
    Related (context.escapeId.write env name) (context.escapeId.write env' name)

/-! ## Lines -/

private theorem takesUp_decimals {a b : Number.Decimal} {sum : Value}
    (h : Summand.decimals a b = .ok sum) : sum.takesUp = false := by
  unfold Summand.decimals at h
  split at h
  · cases h
    rfl
  · cases h

private theorem takesUp_summand {a b : Summand} {sum : Value} (h : a.plus b = .ok sum) :
    sum.takesUp = false := by
  unfold Summand.plus at h
  split at h
  · cases h
    rfl
  · obtain ⟨_, _, rfl⟩ := map_eq_ok.1 h
    rfl
  · obtain ⟨_, _, rfl⟩ := map_eq_ok.1 h
    rfl
  · cases h
    rfl
  · exact takesUp_decimals h
  · exact takesUp_decimals h
  · exact takesUp_decimals h
  · cases h
  · cases h

theorem takesUp_plus {first second sum : Value} (hfirst : first.takesUp = false)
    (h : first.plus second = .ok sum) : sum.takesUp = false := by
  unfold Value.plus at h
  split at h
  · cases h
    rfl
  · cases h
    rfl
  · cases h
    rfl
  · cases hfirst
  · cases hfirst
  · split at h
    · exact takesUp_summand h
    · cases h

private structure Still (x : Outcome Value) : Prop where
  trace : x.trace = []
  takesUp : ∀ v, x.answer = .ok v → v.takesUp = false

private theorem Still.bind {α : Type} {x : Outcome α} {f : α → Outcome Value} (hx : x.trace = [])
    (hf : ∀ a, x.answer = .ok a → Still (f a)) : Still (x >>= f) where
  trace := by
    cases h : x.answer with
    | error cause => rw [trace_bind_error x f cause h, hx]
    | ok a => rw [trace_bind_ok x f a h, hx, (hf a h).trace, List.append_nil]
  takesUp := by
    intro v hv
    obtain ⟨a, ha, hv⟩ := answer_bind_eq_ok.1 hv
    exact (hf a ha).takesUp v hv

private theorem still_extendLines {separator sql added : Value} (hsql : sql.takesUp = false) :
    Still (extendLines separator sql added) := by
  have h : extendLines separator sql added = .ofExcept (sql.plus added) := by
    simp [extendLines, hsql]
  rw [h]
  exact ⟨rfl, fun _ hv => takesUp_plus hsql hv⟩

private theorem still_lengthen {separator sql : Value} (hsep : separator.takesUp = false)
    (hsql : sql.takesUp = false) (isLast : Bool) (line : Value) :
    Still (lengthen separator isLast sql line) := by
  unfold lengthen
  split
  · have hopened : (if sql.isTruthy then sql else separator).takesUp = false := by
      split <;> assumption
    have hfirst : Still (extendLines separator (if sql.isTruthy then sql else separator) line) :=
      still_extendLines hopened
    unfold appendLine
    apply Still.bind hfirst.trace
    intro extended hextended
    have hgrown := hfirst.takesUp extended hextended
    cases isLast with
    | true => exact Still.bind rfl fun tail _ => still_extendLines hgrown
    | false => exact Still.bind rfl fun tail _ => still_extendLines hgrown
  · refine ⟨rfl, ?_⟩
    intro grown h
    cases h
    exact hsql

/-! ## Parts of a render -/

namespace Comparison

variable {env env' : Environment} (C : Comparison env env')

theorem pure {α : Type} (a : α) : C.Related (Pure.pure a) (Pure.pure a) :=
  C.ofExcept (.ok a)

theorem of_silent {α : Type} {x : Outcome α} (h : x.trace = []) : C.Related x x := by
  obtain ⟨trace, answer⟩ := x
  cases h
  exact C.ofExcept answer

theorem mapM {α β : Type} {f g : α → Outcome β} {as : List α}
    (h : ∀ a ∈ as, C.Related (f a) (g a)) : C.Related (as.mapM f) (as.mapM g) := by
  induction as with
  | nil => exact C.pure []
  | cons a as ih =>
    rw [List.forall_mem_cons] at h
    rw [List.mapM_cons, List.mapM_cons]
    apply C.bind h.1
    intro b _
    apply C.bind (ih h.2)
    intro bs _
    exact C.pure _

theorem enter {context : Context} (hcontext : C.Admits context) (f : Fragment) :
    C.Related (context.enter f) (context.enter f) := by
  apply C.bind (C.ofExcept _)
  intro _ _
  exact C.announce hcontext _

private theorem announceEach {context : Context} (hcontext : C.Admits context) (kindName : String)
    {α : Type} (answer : Except Failure α) (count : Nat) :
    C.Related ⟨List.replicate count (context.announcement kindName), answer⟩
      ⟨List.replicate count (context.announcement kindName), answer⟩ := by
  induction count with
  | zero => exact C.ofExcept answer
  | succ count ih =>
    have hsplit : (⟨List.replicate (count + 1) (context.announcement kindName), answer⟩ :
        Outcome α) = (do
          Outcome.emit (context.announcement kindName)
          ⟨List.replicate count (context.announcement kindName), answer⟩) := rfl
    rw [hsplit]
    apply C.bind (C.announce hcontext kindName)
    intro _ _
    exact ih

private theorem bindValue {context : Context} (hcontext : C.Admits context) {value : Value}
    (hvalue : C.Writable value) (hjson : C.Related (json env value) (json env' value)) :
    C.Related (context.bind env value fun _ => json env value)
      (context.bind env' value fun _ => json env' value) := by
  unfold Context.bind
  split
  · exact C.pure _
  · apply C.bind (C.write hcontext hvalue hjson)
    intro sql _
    exact C.pure _

private theorem parameter {context : Context} (hcontext : C.Admits context) {value : Value}
    (hvalue : C.Writable value) (hjson : C.Related (json env value) (json env' value)) :
    C.Related (context.parameter env value fun _ => json env value)
      (context.parameter env' value fun _ => json env' value) := by
  apply C.bind (C.enter hcontext _)
  intro _ _
  exact C.bindValue hcontext hvalue hjson

private theorem list (context : Context) (separator : Value) {values : List Value}
    (hpieces : C.Related (literalEach env context values) (literalEach env' context values)) :
    C.Related (renderList env context separator values)
      (renderList env' context separator values) := by
  unfold renderList
  split
  · apply C.bind (C.ofExcept _)
    intro sql _
    exact C.pure _
  · apply C.bind (C.ofExcept _)
    intro _ _
    apply C.bind hpieces
    intro pieces _
    apply C.bind (C.ofExcept _)
    intro sql _
    exact C.pure _

private theorem composed {context : Context} (hcontext : C.Admits context) (depth : Nat)
    (label : Label) (form : TemplateForm) (strings : List Value) {values : List Value}
    (hvalues : C.Related (promotedEach env context values) (promotedEach env' context values)) :
    C.Related (resolve env context depth (.template label form strings values))
      (resolve env' context depth (.template label form strings values)) := by
  rw [SqlFragments.resolve, SqlFragments.resolve]
  apply C.bind (C.enter hcontext _)
  intro _ _
  apply C.bind hvalues
  intro rendered _
  apply C.bind (C.ofExcept _)
  intro result _
  exact C.pure _

/-! ## Whole renders -/

mutual

theorem resolve (f : Fragment) (hf : C.Within (.fragment f)) {context : Context}
    (hcontext : C.Admits context) (depth : Nat) :
    C.Related (resolve env context depth f) (resolve env' context depth f) := by
  match f with
  | .raw value =>
    rw [resolve_raw, resolve_raw]
    apply C.bind (C.enter hcontext _)
    intro _ _
    have htext : C.Related (verbatimText env value) (verbatimText env' value) := by
      cases value with
      | null => exact C.pure _
      | _ => exact plainText _ (C.parts.raw hf)
    apply C.bind htext
    intro text _
    exact C.pure _
  | .identifier name =>
    rw [SqlFragments.resolve, SqlFragments.resolve]
    apply C.bind (C.enter hcontext _)
    intro _ _
    apply C.bind (C.writeName hcontext (C.parts.text name))
    intro sql _
    exact C.pure _
  | .parameter value =>
    rw [SqlFragments.resolve, SqlFragments.resolve]
    have hvalue := C.parts.parameter hf
    apply C.bind (C.parameter hcontext hvalue (json value hvalue))
    intro result _
    exact C.pure _
  | .parameterList values separator =>
    rw [resolve_parameterList, resolve_parameterList]
    apply C.bind (C.enter hcontext _)
    intro _ _
    apply C.bind (C.list context separator (literalEach values (C.parts.parameterList hf) hcontext))
    intro result _
    exact C.pure _
  | .columnList columns separator =>
    rw [SqlFragments.resolve, SqlFragments.resolve]
    apply C.bind (C.enter hcontext _)
    intro _ _
    apply C.bind (C.ofExcept _)
    intro _ _
    apply C.bind (C.mapM fun column h => C.writeName hcontext (C.parts.columnList hf column h))
    intro pieces _
    apply C.bind (C.ofExcept _)
    intro sql _
    exact C.pure _
  | .lines members separator =>
    rw [SqlFragments.resolve, SqlFragments.resolve]
    apply C.bind (C.enter hcontext _)
    intro _ _
    obtain ⟨hsep, hmembers⟩ := C.parts.lines hf
    apply C.bind (linesFrom members hmembers hcontext hsep rfl [])
    intro result _
    exact C.pure _
  | .clause strings value =>
    rw [resolve_clause, resolve_clause]
    apply C.bind (C.enter hcontext _)
    intro _ _
    apply C.bind (evaluate value (C.parts.clause hf) hcontext)
    intro rendered _
    apply C.bind (C.ofExcept _)
    intro inner _
    apply C.bind (C.ofExcept _)
    intro result _
    exact C.pure _
  | .template label form strings values =>
    exact C.composed hcontext depth label form strings
      (promotedEach values (C.parts.template hf) hcontext)
  | .leaf label form text bindings assigned =>
    rw [resolve_leaf, resolve_leaf]
    apply C.bind (C.enter hcontext _)
    intro _ _
    apply C.bind (C.ofExcept _)
    intro _ _
    apply C.bind (C.leafRendered label)
    intro _ _
    exact C.pure _
  | .probe label assigned =>
    rw [SqlFragments.resolve, SqlFragments.resolve]
    apply C.bind (C.enter hcontext _)
    intro _ _
    exact C.pure _
  | .deferred label (.fragment f) assigned =>
    rw [resolve_deferred, resolve_deferred, follow, follow]
    apply C.bind (C.enter hcontext _)
    intro _ _
    split
    · exact C.ofExcept _
    · -- The fragment that follows is a part of this one; the depth is only counted.
      exact resolve f (C.parts.deferred hf) hcontext (depth + 1)
  | .deferred _ .null _ | .deferred _ (.bool _) _ | .deferred _ (.int _) _
  | .deferred _ (.float _ _) _ | .deferred _ (.decimal _ _) _ | .deferred _ (.text _) _
  | .deferred _ (.dateTime _) _ | .deferred _ (.date _) _ | .deferred _ (.bytes _ _) _
  | .deferred _ (.list _ _) _ | .deferred _ (.tuple _) _ | .deferred _ (.dict _ _) _
  | .deferred _ (.object _ _) _ | .deferred _ (.function _) _ =>
    rw [resolve_deferred, resolve_deferred]
    apply C.bind (C.enter hcontext _)
    intro _ _
    exact C.pure _
  | .endless label assigned =>
    rw [SqlFragments.resolve, SqlFragments.resolve]
    apply C.bind (C.enter hcontext _)
    intro _ _
    exact C.announceEach hcontext _ _ _
  | .unrenderable label kind assigned =>
    rw [SqlFragments.resolve, SqlFragments.resolve]
    apply C.bind (C.enter hcontext _)
    intro _ _
    exact C.pure _
termination_by structural f

theorem evaluate (target : Value) (htarget : C.Within target) {context : Context}
    (hcontext : C.Admits context) :
    C.Related (evaluate env context target) (evaluate env' context target) := by
  match target with
  | .null => exact C.pure _
  | .text s =>
    rw [SqlFragments.evaluate, SqlFragments.evaluate]
    split
    · exact C.pure _
    · split
      · have hbind := C.bindValue hcontext (C.parts.text s) (C.pure (Json.text s))
        simp only [SqlFragments.json] at hbind
        apply C.bind hbind
        intro result _
        exact C.pure _
      · exact C.ofExcept _
  | .fragment f =>
    rw [SqlFragments.evaluate, SqlFragments.evaluate]
    exact resolve f htarget hcontext 0
  | .bool _ | .int _ | .float _ _ | .decimal _ _ | .dateTime _ | .date _ | .bytes _ _ | .list _ _
  | .tuple _ | .dict _ _ | .object _ _ | .function _ => exact C.ofExcept _
termination_by structural target

theorem promotedEach (values : List Value)
    (hvalues : ∀ value ∈ values, if value.isPlain then C.Writable value else C.Within value)
    {context : Context} (hcontext : C.Admits context) :
    C.Related (promotedEach env context values) (promotedEach env' context values) := by
  match values with
  | [] => exact C.pure _
  | value :: rest =>
    rw [List.forall_mem_cons] at hvalues
    rw [promotedEach_cons, promotedEach_cons]
    have hfirst : C.Related (promote env context value) (promote env' context value) := by
      unfold promote
      split
      · next hplain =>
        have hvalue := hvalues.1
        rw [if_pos hplain] at hvalue
        apply C.bind (C.parameter hcontext hvalue (json value hvalue))
        intro result _
        exact C.pure _
      · next hplain =>
        have hvalue := hvalues.1
        rw [if_neg hplain] at hvalue
        exact evaluate value hvalue hcontext
    apply C.bind hfirst
    intro rendered _
    apply C.bind (promotedEach rest hvalues.2 hcontext)
    intro others _
    exact C.pure _
termination_by structural values

theorem linesFrom (members : List Value) (hmembers : ∀ member ∈ members, C.Within member)
    {context : Context} (hcontext : C.Admits context) {separator sql : Value}
    (hsep : separator.takesUp = false) (hsql : sql.takesUp = false) (bindings : List Value) :
    C.Related (linesFrom env context separator sql bindings members)
      (linesFrom env' context separator sql bindings members) := by
  match members with
  | [] => exact C.pure _
  | member :: rest =>
    rw [List.forall_mem_cons] at hmembers
    rw [linesFrom_cons, linesFrom_cons]
    apply C.bind (evaluate member hmembers.1 hcontext)
    intro rendered _
    apply C.bind (C.ofExcept _)
    intro result _
    -- No line changes the separator for the lines behind it, so the recursion can go on with it.
    have hgrowth := still_lengthen hsep hsql rest.isEmpty result.sql
    apply C.bind (C.of_silent hgrowth.trace)
    intro grown hgrown
    exact linesFrom rest hmembers.2 hcontext hsep (hgrowth.takesUp grown hgrown) _
termination_by structural members

theorem literalEach (values : List Value) (hvalues : ∀ value ∈ values, C.Writable value)
    {context : Context} (hcontext : C.Admits context) :
    C.Related (literalEach env context values) (literalEach env' context values) := by
  match values with
  | [] => exact C.pure _
  | value :: rest =>
    rw [List.forall_mem_cons] at hvalues
    rw [SqlFragments.literalEach, SqlFragments.literalEach]
    apply C.bind (C.write hcontext hvalues.1 (json value hvalues.1))
    intro literal _
    apply C.bind (literalEach rest hvalues.2 hcontext)
    intro literals _
    exact C.pure _
termination_by structural values

theorem json (value : Value) (hvalue : C.Writable value) :
    C.Related (json env value) (json env' value) := by
  match value with
  | .list _ items =>
    rw [SqlFragments.json, SqlFragments.json]
    apply C.bind (jsonEach items (C.parts.list hvalue))
    intro trees _
    exact C.pure _
  | .tuple items =>
    rw [SqlFragments.json, SqlFragments.json]
    apply C.bind (jsonEach items (C.parts.tuple hvalue))
    intro trees _
    exact C.pure _
  | .dict _ entries =>
    rw [SqlFragments.json, SqlFragments.json]
    apply C.bind (jsonEntries entries (C.parts.dict hvalue))
    intro members _
    exact C.pure _
  | .fragment f =>
    rw [SqlFragments.json, SqlFragments.json]
    apply C.bind (C.inline hvalue (resolve f (C.parts.written hvalue) C.inlined 0))
    intro text _
    exact C.pure _
  | .null | .bool _ | .float _ _ | .text _ => exact C.pure _
  | .int n =>
    apply C.bind (C.ofExcept (Number.Whole.ofInt n))
    intro whole _
    exact C.pure _
  | .decimal _ _ | .dateTime _ | .date _ | .bytes _ _ | .object _ _ | .function _ =>
    apply C.bind (C.ofExcept _)
    intro text _
    exact C.pure _
termination_by structural value

theorem jsonEach (values : List Value) (hvalues : ∀ value ∈ values, C.Writable value) :
    C.Related (jsonEach env values) (jsonEach env' values) := by
  match values with
  | [] => exact C.pure _
  | value :: rest =>
    rw [List.forall_mem_cons] at hvalues
    rw [SqlFragments.jsonEach, SqlFragments.jsonEach]
    apply C.bind (json value hvalues.1)
    intro tree _
    apply C.bind (jsonEach rest hvalues.2)
    intro trees _
    exact C.pure _
termination_by structural values

theorem jsonEntries (entries : List (Value × Value))
    (hentries : ∀ entry ∈ entries, C.Writable entry.2) :
    C.Related (jsonEntries env entries) (jsonEntries env' entries) := by
  match entries with
  | [] => exact C.pure _
  | (key, value) :: rest =>
    rw [List.forall_mem_cons] at hentries
    rw [SqlFragments.jsonEntries, SqlFragments.jsonEntries]
    apply C.bind (C.ofExcept _)
    intro name _
    apply C.bind (json value hentries.1)
    intro tree _
    apply C.bind (jsonEntries rest hentries.2)
    intro members _
    exact C.pure _
termination_by structural entries

theorem plainText (value : Value) (hvalue : C.Writable value) :
    C.Related (plainText env value) (plainText env' value) := by
  match value with
  | .fragment f =>
    rw [SqlFragments.plainText, SqlFragments.plainText]
    exact C.inline hvalue (resolve f (C.parts.written hvalue) C.inlined 0)
  | .null | .bool _ | .int _ | .float _ _ | .text _ | .decimal _ _ | .dateTime _ | .date _
  | .bytes _ _ | .list _ _ | .tuple _ | .dict _ _ | .object _ _ | .function _ =>
    exact C.ofExcept _
termination_by structural value

end

theorem template {context : Context} (hcontext : C.Admits context) (depth : Nat) (label : Label)
    (form : TemplateForm) (strings : List Value) {values : List Value}
    (hvalues : ∀ value ∈ values, if value.isPlain then C.Writable value else C.Within value) :
    C.Related (SqlFragments.resolve env context depth (.template label form strings values))
      (SqlFragments.resolve env' context depth (.template label form strings values)) :=
  C.composed hcontext depth label form strings (C.promotedEach values hvalues hcontext)

end Comparison

end SqlFragments
