import SqlFragments.Proofs.Journal.Format
import SqlFragments.Proofs.Render.Compose
import SqlFragments.Proofs.Render.Options
import SqlFragments.Proofs.Value.Apart

/-!
# Renders apart from lists

Where a list stands in nothing that a render is given, it stands in nothing that the render gives or
leaves behind: neither in the result nor in what templates are to remember nor in what separators
take up.
-/

namespace SqlFragments

open Outcome

/-! ## What renders give and leave behind -/

structure Result.Apart (lists : Set Label) (r : Result) : Prop where
  sql : r.sql.Apart lists
  bindings : ∀ v ∈ r.bindings, v.Apart lists
  method : r.method.Apart lists
  hooks : ∀ hook ∈ r.hooks, hook.2.Apart lists

def Rendered.Apart (lists : Set Label) : Rendered → Prop
  | result r => r.Apart lists
  | other v => v.Apart lists

/-- An event through which no list gets into what is remembered. Records of calls are not. -/
inductive Event.Apart (lists : Set Label) : Event → Prop
  | rendering (kindName : String) (withParameters : Bool) {timezone method : Value}
    (htimezone : timezone.Apart lists) (hmethod : method.Apart lists) :
    Event.Apart lists (.rendering kindName withParameters timezone method)
  | literalEscaped (value timezone : Value) : Event.Apart lists (.literalEscaped value timezone)
  | identifierEscaped (name : Value) : Event.Apart lists (.identifierEscaped name)
  | leafRendered (label : Label) : Event.Apart lists (.leafRendered label)
  | extended {separator added : Value} (hseparator : separator.Apart lists)
    (hadded : added.Apart lists) : Event.Apart lists (.extended separator added)
  | inlined (label : Label) {trace : List Event} {result : Option Result}
    (htrace : ∀ event ∈ trace, Event.Apart lists event)
    (hresult : ∀ r, result = some r → r.Apart lists) :
    Event.Apart lists (.inlined label trace result)

/-- An outcome of events that are apart from lists, with an answer of some sort if there is one. -/
structure Outcome.Apart (lists : Set Label) {α : Type} (P : α → Prop) (x : Outcome α) : Prop where
  trace : ∀ event ∈ x.trace, event.Apart lists
  answer : ∀ a, x.answer = .ok a → P a

def Environment.Apart (lists : Set Label) (env : Environment) : Prop :=
  ∀ label sql, env.remembered label = .ok (some sql) → sql.Apart lists

def LiteralEscaper.Apart (lists : Set Label) : LiteralEscaper → Prop
  | standard => True
  | custom _ write => ∀ env value timezone, env.Apart lists → value.Apart lists →
    timezone.Apart lists → (write env value timezone).Apart lists (Value.Apart lists)
  | broken given => given.Apart lists

def IdentifierEscaper.Apart (lists : Set Label) : IdentifierEscaper → Prop
  | standard => True
  | custom _ write => ∀ env name, env.Apart lists → name.Apart lists →
    (write env name).Apart lists (Value.Apart lists)
  | broken given => given.Apart lists

structure Context.Apart (lists : Set Label) (context : Context) : Prop where
  escape : context.escape.Apart lists
  escapeId : context.escapeId.Apart lists
  timezone : context.timezone.Apart lists
  method : context.method.Apart lists

def Setting.Apart (lists : Set Label) : Setting → Prop
  | value v => v.Apart lists
  | literalEscaper escaper => escaper.Apart lists
  | identifierEscaper escaper => escaper.Apart lists

def Options.Apart (lists : Set Label) (options : Options) : Prop :=
  ∀ fields, options.fields = .ok fields → ∀ field ∈ fields, field.2.Apart lists

variable {lists : Set Label} {env : Environment} {context : Context}

theorem Context.apart_inlined : Context.inlined.Apart lists :=
  ⟨trivial, trivial, Value.apart_text _, Value.apart_null⟩

theorem Result.apart_of_text (s : String) : ({ sql := .text s } : Result).Apart lists :=
  ⟨Value.apart_text s, nofun, Value.apart_text _, nofun⟩

/-! ## One thing after another -/

namespace Outcome.Apart

variable {α β : Type} {P : α → Prop} {Q : β → Prop}

theorem of_silent {x : Outcome α} (htrace : x.trace = []) (h : ∀ a, x.answer = .ok a → P a) :
    x.Apart lists P where
  trace := by
    rw [htrace]
    exact fun _ he => by cases he
  answer := h

theorem pure {a : α} (h : P a) : (Pure.pure a : Outcome α).Apart lists P :=
  of_silent rfl fun _ ha => by
    cases ha
    exact h

theorem ofExcept {answer : Except Failure α} (h : ∀ a, answer = .ok a → P a) :
    (Outcome.ofExcept answer).Apart lists P :=
  of_silent rfl h

theorem fail (cause : Failure) : (Outcome.fail cause : Outcome α).Apart lists P :=
  of_silent rfl fun _ ha => by cases ha

theorem emit {event : Event} (h : event.Apart lists) :
    (Outcome.emit event).Apart lists fun _ => True where
  trace := by
    intro e he
    rwa [List.mem_singleton.1 he]
  answer _ _ := trivial

protected theorem bind {x : Outcome α} {f : α → Outcome β} (first : x.Apart lists P)
    (next : ∀ a, P a → (f a).Apart lists Q) : (x >>= f).Apart lists Q := by
  cases hx : x.answer with
  | error cause =>
    refine ⟨?_, fun b hb => ?_⟩
    · rw [trace_bind_error x f cause hx]
      exact first.trace
    · obtain ⟨a, ha, _⟩ := answer_bind_eq_ok.1 hb
      rw [hx] at ha
      cases ha
  | ok a =>
    have hnext := next a (first.answer a hx)
    refine ⟨?_, fun b hb => ?_⟩
    · rw [trace_bind_ok x f a hx, List.forall_mem_append]
      exact ⟨first.trace, hnext.trace⟩
    · obtain ⟨a', ha, hb⟩ := answer_bind_eq_ok.1 hb
      rw [hx] at ha
      cases ha
      exact hnext.answer b hb

theorem mapM {f : α → Outcome β} {as : List α} (h : ∀ a ∈ as, (f a).Apart lists Q) :
    (as.mapM f).Apart lists fun bs => ∀ b ∈ bs, Q b := by
  induction as with
  | nil => exact pure fun _ hb => by cases hb
  | cons a as ih =>
    rw [List.forall_mem_cons] at h
    rw [List.mapM_cons]
    refine h.1.bind fun b hb => ?_
    refine (ih h.2).bind fun bs hbs => ?_
    exact pure (List.forall_mem_cons.2 ⟨hb, hbs⟩)

end Outcome.Apart

/-! ## Parts of a render -/

private theorem apart_enter (hcontext : context.Apart lists) (f : Fragment) :
    (context.enter f).Apart lists fun _ => True := by
  have hallow : (Outcome.ofExcept (context.allow f)).Apart lists fun _ => True :=
    .ofExcept fun _ _ => trivial
  refine hallow.bind fun _ _ => ?_
  exact .emit (.rendering _ _ hcontext.timezone hcontext.method)

private theorem apart_expect {rendered : Rendered} (h : rendered.Apart lists) :
    rendered.expect.Apart lists (Result.Apart lists) := by
  apply Outcome.Apart.ofExcept
  intro r hr
  cases rendered with
  | result result =>
    cases hr
    exact h
  | other value => cases hr

private theorem apart_expectText (value : Value) :
    value.expectText.Apart lists fun _ => True := by
  cases value <;> exact .of_silent rfl fun _ _ => trivial

private theorem apart_showText (value : Value) : value.showText.Apart lists fun _ => True :=
  .ofExcept fun _ _ => trivial

private theorem apart_text {x : Outcome Rendered} (h : x.Apart lists (Rendered.Apart lists)) :
    (do
      let rendered ← x
      let result ← rendered.expect
      result.sql.expectText : Outcome String).Apart lists fun _ => True := by
  refine h.bind fun rendered hrendered => ?_
  refine (apart_expect hrendered).bind fun result _ => ?_
  exact apart_expectText _

private theorem apart_inline {f : Fragment}
    (h : (resolve env .inlined 0 f).Apart lists (Rendered.Apart lists)) :
    (env.inline f fun _ => resolve env .inlined 0 f).Apart lists fun _ => True := by
  cases f with
  | template label form strings values =>
    simp only [Environment.inline]
    split
    · exact .fail _
    · exact apart_expectText _
    · apply apart_text
      refine ⟨?_, h.answer⟩
      intro event hevent
      rw [List.mem_singleton.1 hevent]
      refine .inlined label h.trace fun r hr => ?_
      cases hanswer : (resolve env .inlined 0 (.template label form strings values)).answer with
      | error cause =>
        rw [hanswer] at hr
        cases hr
      | ok rendered =>
        rw [hanswer] at hr
        cases rendered with
        | result result =>
          cases hr
          exact h.answer _ hanswer
        | other value => cases hr
  | raw | identifier | parameter | parameterList | columnList | lines | clause | leaf | probe
  | deferred | endless | unrenderable =>
    simp only [Environment.inline]
    split
    · exact .fail _
    · exact apart_text h

private theorem apart_write (henv : env.Apart lists) (hcontext : context.Apart lists)
    {value : Value} (hvalue : value.Apart lists) {json : Unit → Outcome Json}
    (hjson : (json ()).Apart lists fun _ => True) :
    (context.escape.write env value context.timezone json).Apart lists (Value.Apart lists) := by
  have hescape := hcontext.escape
  cases hescaper : context.escape with
  | standard =>
    simp only [LiteralEscaper.write]
    split
    · rw [Outcome.ofExcept_bind_pure]
      refine .ofExcept fun literal hliteral => ?_
      obtain ⟨s, _, rfl⟩ := Outcome.map_eq_ok.1 hliteral
      exact Value.apart_text s
    · exact hjson.bind fun tree _ => .pure (Value.apart_text _)
  | custom label write =>
    rw [hescaper] at hescape
    exact hescape env value _ henv hvalue hcontext.timezone
  | broken given => exact .fail _

private theorem apart_writeName (henv : env.Apart lists) (hcontext : context.Apart lists)
    {name : Value} (hname : name.Apart lists) :
    (context.escapeId.write env name).Apart lists (Value.Apart lists) := by
  have hescape := hcontext.escapeId
  cases hescaper : context.escapeId with
  | standard =>
    refine .ofExcept fun written hwritten => ?_
    obtain ⟨s, _, rfl⟩ := map_eq_ok.1 hwritten
    exact Value.apart_text _
  | custom label write =>
    rw [hescaper] at hescape
    exact hescape env name henv hname
  | broken given => exact .fail _

private theorem apart_joinWith {separator : Value} {pieces : List Value} {joined : Value}
    (h : joinWith separator pieces = .ok joined) : joined.Apart lists := by
  unfold joinWith at h
  split at h
  · split at h
    · cases h
      simp
    · cases h
  · split at h
    · cases h
      simp
    · cases h
  · split at h
    · cases h
      simp
    · cases h
  · cases h

private theorem apart_closingSeparator {separator closing : Value}
    (h : closingSeparator separator = .ok closing) : closing.Apart lists := by
  unfold closingSeparator at h
  split at h
  · cases h
    simp
  · cases h
  · cases h
  · cases h

private theorem apart_extendLines {separator sql added : Value} (hseparator : separator.Apart lists)
    (hsql : sql.Apart lists) (hadded : added.Apart lists) :
    (extendLines separator sql added).Apart lists (Value.Apart lists) := by
  have hsum : (Outcome.ofExcept (sql.plus added)).Apart lists (Value.Apart lists) :=
    .ofExcept fun _ h => hsql.plus hadded h
  refine hsum.bind fun extended hextended => ?_
  split
  · refine (Outcome.Apart.emit (.extended hseparator hadded)).bind fun _ _ => ?_
    exact .pure hextended
  · exact .pure hextended

private theorem apart_lengthen {separator sql line : Value} (hseparator : separator.Apart lists)
    (hsql : sql.Apart lists) (hline : line.Apart lists) (isLast : Bool) :
    (lengthen separator isLast sql line).Apart lists (Value.Apart lists) := by
  unfold lengthen
  split
  · have hopened : (if sql.isTruthy then sql else separator).Apart lists := by
      split <;> assumption
    unfold appendLine
    refine (apart_extendLines hseparator hopened hline).bind fun extended hextended => ?_
    have hfollowing : (if separator.takesUp then extended else separator).Apart lists := by
      split <;> assumption
    cases isLast with
    | true =>
      refine Outcome.Apart.bind (P := Value.Apart lists)
        (.ofExcept fun _ h => apart_closingSeparator h) fun tail htail => ?_
      exact apart_extendLines hseparator hextended htail
    | false =>
      refine Outcome.Apart.bind (.pure hfollowing) fun tail htail => ?_
      exact apart_extendLines hseparator hextended htail
  · exact .pure hsql

private theorem apart_bind (henv : env.Apart lists) (hcontext : context.Apart lists) {value : Value}
    (hvalue : value.Apart lists) {json : Unit → Outcome Json}
    (hjson : (json ()).Apart lists fun _ => True) :
    (context.bind env value json).Apart lists (Result.Apart lists) := by
  unfold Context.bind
  split
  · refine .pure ⟨Value.apart_text _, ?_, Value.apart_text _, nofun⟩
    exact List.forall_mem_singleton.2 hvalue
  · refine (apart_write henv hcontext hvalue hjson).bind fun sql hsql => ?_
    exact .pure ⟨hsql, nofun, Value.apart_text _, nofun⟩

private theorem apart_parameter (henv : env.Apart lists) (hcontext : context.Apart lists)
    {value : Value} (hvalue : value.Apart lists) {json : Unit → Outcome Json}
    (hjson : (json ()).Apart lists fun _ => True) :
    (context.parameter env value json).Apart lists (Result.Apart lists) :=
  (apart_enter hcontext _).bind fun _ _ => apart_bind henv hcontext hvalue hjson

private theorem apart_boundValues {rendered : List Rendered}
    (h : ∀ r ∈ rendered, r.Apart lists) :
    ∀ v ∈ boundValues (rendered.map Rendered.toResult), v.Apart lists := by
  intro v hv
  obtain ⟨_, hmem, hv⟩ := List.mem_flatMap.1 hv
  obtain ⟨r, hr, rfl⟩ := List.mem_map.1 hmem
  cases r with
  | result result => exact (h _ hr).bindings v hv
  | other value => cases hv

private theorem apart_compose (hcontext : context.Apart lists) {strings : List Value}
    {results : List (Except Failure Result)} {result : Result}
    (hresults : ∀ v ∈ boundValues results, v.Apart lists)
    (h : compose strings results context = .ok result) : result.Apart lists := by
  obtain ⟨text, _, rfl⟩ := compose_eq_ok.1 h
  refine ⟨Value.apart_text _, hresults, ?_, nofun⟩
  show (Context.tag context).Apart lists
  unfold Context.tag
  split
  · exact hcontext.method
  · exact Value.apart_text _

private theorem apart_surround (hcontext : context.Apart lists) {strings : List Value}
    {inner result : Result} (hinner : inner.Apart lists)
    (h : surround context strings inner = .ok result) : result.Apart lists := by
  unfold surround at h
  split at h
  · refine apart_compose hcontext ?_ h
    simpa [boundValues] using hinner.bindings
  · cases h
    exact ⟨Value.apart_text _, hinner.bindings, Value.apart_text _, nofun⟩

private theorem apart_renderList (separator : Value) {values : List Value}
    (hvalues : ∀ v ∈ values, v.Apart lists)
    (hpieces : (literalEach env context values).Apart lists fun _ => True) :
    (renderList env context separator values).Apart lists (Result.Apart lists) := by
  unfold renderList
  split
  · refine Outcome.Apart.bind (P := Value.Apart lists)
      (.ofExcept fun _ h => apart_joinWith h) fun sql hsql => ?_
    exact .pure ⟨hsql, hvalues, Value.apart_text _, nofun⟩
  · refine Outcome.Apart.bind (P := fun _ => True) (.ofExcept fun _ _ => trivial) fun _ _ => ?_
    refine hpieces.bind fun pieces _ => ?_
    refine Outcome.Apart.bind (P := Value.Apart lists)
      (.ofExcept fun _ h => apart_joinWith h) fun sql hsql => ?_
    exact .pure ⟨hsql, nofun, Value.apart_text _, nofun⟩

private theorem apart_announceEach (hcontext : context.Apart lists) (kindName : String)
    (count : Nat) (cause : Failure) :
    (⟨List.replicate count (context.announcement kindName), .error cause⟩ :
      Outcome Rendered).Apart lists (Rendered.Apart lists) where
  trace := by
    intro event hevent
    rw [List.eq_of_mem_replicate hevent]
    exact .rendering _ _ hcontext.timezone hcontext.method
  answer _ ha := by cases ha

/-! ## Whole renders -/

mutual

/-- What a list does not stand in renders to what it does not stand in. -/
theorem Fragment.apart_resolve (f : Fragment) (hf : (Value.fragment f).Apart lists)
    (henv : env.Apart lists) {context : Context} (hcontext : context.Apart lists) (depth : Nat) :
    (resolve env context depth f).Apart lists (Rendered.Apart lists) := by
  have hinside := Value.apart_fragment_iff.1 hf
  match f with
  | .raw value =>
    rw [resolve_raw]
    refine (apart_enter hcontext _).bind fun _ _ => ?_
    have htext : (verbatimText env value).Apart lists fun _ => True := by
      cases value with
      | null => exact .pure trivial
      | _ => exact Value.apart_plainText _ (List.forall_mem_singleton.1 hinside) henv
    refine htext.bind fun text _ => ?_
    exact .pure (Result.apart_of_text text)
  | .identifier name =>
    rw [resolve]
    refine (apart_enter hcontext _).bind fun _ _ => ?_
    refine (apart_writeName henv hcontext (Value.apart_text name)).bind fun sql hsql => ?_
    exact .pure ⟨hsql, nofun, Value.apart_text _, nofun⟩
  | .parameter value =>
    rw [resolve]
    have hvalue := List.forall_mem_singleton.1 hinside
    refine (apart_parameter henv hcontext hvalue (Value.apart_json value hvalue henv)).bind
      fun result hresult => ?_
    exact .pure hresult
  | .parameterList values separator =>
    rw [resolve_parameterList]
    have hvalues := (List.forall_mem_cons.1 hinside).2
    refine (apart_enter hcontext _).bind fun _ _ => ?_
    refine (apart_renderList separator hvalues
      (Value.apart_literalEach values hvalues henv hcontext)).bind fun result hresult => ?_
    exact .pure hresult
  | .columnList columns separator =>
    rw [resolve]
    have hcolumns := (List.forall_mem_cons.1 hinside).2
    refine (apart_enter hcontext _).bind fun _ _ => ?_
    refine Outcome.Apart.bind (P := fun _ => True) (.ofExcept fun _ _ => trivial) fun _ _ => ?_
    refine (Outcome.Apart.mapM fun column h =>
      apart_writeName henv hcontext (hcolumns column h)).bind fun pieces _ => ?_
    refine Outcome.Apart.bind (P := Value.Apart lists)
      (.ofExcept fun _ h => apart_joinWith h) fun sql hsql => ?_
    exact .pure ⟨hsql, nofun, Value.apart_text _, nofun⟩
  | .lines members separator =>
    rw [resolve]
    obtain ⟨hseparator, hmembers⟩ := List.forall_mem_cons.1 hinside
    refine (apart_enter hcontext _).bind fun _ _ => ?_
    refine (Value.apart_linesFrom members hmembers henv hcontext hseparator (Value.apart_text _)
      fun _ hv => by cases hv).bind fun result hresult => ?_
    exact .pure hresult
  | .clause strings value =>
    rw [resolve_clause]
    have hvalue := (List.forall_mem_cons.1 hinside).1
    refine (apart_enter hcontext _).bind fun _ _ => ?_
    refine (Value.apart_evaluate value hvalue henv hcontext).bind fun rendered hrendered => ?_
    refine (apart_expect hrendered).bind fun inner hinner => ?_
    refine Outcome.Apart.bind (P := Result.Apart lists)
      (.ofExcept fun _ h => apart_surround hcontext hinner h) fun result hresult => ?_
    exact .pure hresult
  | .template label form strings values =>
    rw [resolve]
    have hvalues := (List.forall_mem_append.1 hinside).2
    refine (apart_enter hcontext _).bind fun _ _ => ?_
    refine (Value.apart_promotedEach values hvalues henv hcontext).bind fun rendered hrendered => ?_
    refine Outcome.Apart.bind (P := Result.Apart lists)
      (.ofExcept fun _ h => apart_compose hcontext (apart_boundValues hrendered) h)
      fun result hresult => ?_
    exact .pure hresult
  | .leaf label form text bindings assigned =>
    rw [resolve_leaf]
    obtain ⟨htext, hrest⟩ := List.forall_mem_cons.1 hinside
    refine (apart_enter hcontext _).bind fun _ _ => ?_
    refine Outcome.Apart.bind (P := fun _ => True) (.ofExcept fun _ _ => trivial) fun _ _ => ?_
    refine (Outcome.Apart.emit (.leafRendered label)).bind fun _ _ => ?_
    exact .pure ⟨htext, (List.forall_mem_append.1 hrest).1, Value.apart_text _, nofun⟩
  | .probe label assigned =>
    rw [resolve]
    refine (apart_enter hcontext _).bind fun _ _ => ?_
    refine .pure ⟨Value.apart_text _, ?_, Value.apart_text _, nofun⟩
    simp [hcontext.timezone, hcontext.method]
  | .deferred label (.fragment f) assigned =>
    rw [resolve_deferred]
    refine (apart_enter hcontext _).bind fun _ _ => ?_
    rw [follow]
    split
    · exact .fail _
    · exact Fragment.apart_resolve f (List.forall_mem_cons.1 hinside).1 henv hcontext (depth + 1)
  | .deferred _ .null _ | .deferred _ (.bool _) _ | .deferred _ (.int _) _
  | .deferred _ (.float _ _) _ | .deferred _ (.decimal _ _) _ | .deferred _ (.text _) _
  | .deferred _ (.dateTime _) _ | .deferred _ (.date _) _ | .deferred _ (.bytes _ _) _
  | .deferred _ (.list _ _) _ | .deferred _ (.tuple _) _ | .deferred _ (.dict _ _) _
  | .deferred _ (.object _ _) _ | .deferred _ (.function _) _ =>
    rw [resolve_deferred]
    refine (apart_enter hcontext _).bind fun _ _ => ?_
    exact .pure (List.forall_mem_cons.1 hinside).1
  | .endless label assigned =>
    rw [resolve]
    refine (apart_enter hcontext _).bind fun _ _ => ?_
    exact apart_announceEach hcontext _ _ _
  | .unrenderable label kind assigned =>
    rw [resolve]
    refine (apart_enter hcontext _).bind fun _ _ => ?_
    exact .pure (Result.apart_of_text "")
termination_by structural f

theorem Value.apart_evaluate (target : Value) (htarget : target.Apart lists)
    (henv : env.Apart lists) {context : Context} (hcontext : context.Apart lists) :
    (evaluate env context target).Apart lists (Rendered.Apart lists) := by
  match target with
  | .null => exact .pure (Result.apart_of_text "NULL")
  | .text s =>
    rw [evaluate]
    split
    · refine .pure ⟨Value.apart_text _, ?_, Value.apart_text _, nofun⟩
      exact List.forall_mem_singleton.2 (Value.apart_text s)
    · split
      · refine (apart_bind henv hcontext (Value.apart_text s) (.pure trivial)).bind
          fun result hresult => ?_
        exact .pure hresult
      · exact .fail _
  | .fragment f =>
    rw [evaluate]
    exact Fragment.apart_resolve f htarget henv hcontext 0
  | .bool _ | .int _ | .float _ _ | .decimal _ _ | .dateTime _ | .date _ | .bytes _ _ | .list _ _
  | .tuple _ | .dict _ _ | .object _ _ | .function _ => exact .fail _
termination_by structural target

theorem Value.apart_promotedEach (values : List Value) (hvalues : ∀ v ∈ values, v.Apart lists)
    (henv : env.Apart lists) {context : Context} (hcontext : context.Apart lists) :
    (promotedEach env context values).Apart lists fun rendered =>
      ∀ r ∈ rendered, r.Apart lists := by
  match values with
  | [] => exact .pure fun _ hr => by cases hr
  | value :: rest =>
    rw [List.forall_mem_cons] at hvalues
    rw [promotedEach_cons]
    have hfirst : (promote env context value).Apart lists (Rendered.Apart lists) := by
      unfold promote
      split
      · refine (apart_parameter henv hcontext hvalues.1
          (Value.apart_json value hvalues.1 henv)).bind fun result hresult => ?_
        exact .pure hresult
      · exact Value.apart_evaluate value hvalues.1 henv hcontext
    refine hfirst.bind fun rendered hrendered => ?_
    refine (Value.apart_promotedEach rest hvalues.2 henv hcontext).bind fun others hothers => ?_
    exact .pure (List.forall_mem_cons.2 ⟨hrendered, hothers⟩)
termination_by structural values

theorem Value.apart_linesFrom (members : List Value) (hmembers : ∀ v ∈ members, v.Apart lists)
    (henv : env.Apart lists) {context : Context} (hcontext : context.Apart lists)
    {separator sql : Value} (hseparator : separator.Apart lists) (hsql : sql.Apart lists)
    {bindings : List Value} (hbindings : ∀ v ∈ bindings, v.Apart lists) :
    (linesFrom env context separator sql bindings members).Apart lists (Result.Apart lists) := by
  match members with
  | [] => exact .pure ⟨hsql, hbindings, Value.apart_text _, nofun⟩
  | member :: rest =>
    rw [List.forall_mem_cons] at hmembers
    rw [linesFrom_cons]
    refine (Value.apart_evaluate member hmembers.1 henv hcontext).bind fun rendered hrendered => ?_
    refine (apart_expect hrendered).bind fun result hresult => ?_
    refine (apart_lengthen hseparator hsql hresult.sql rest.isEmpty).bind fun grown hgrown => ?_
    exact Value.apart_linesFrom rest hmembers.2 henv hcontext hseparator hgrown
      (List.forall_mem_append.2 ⟨hbindings, hresult.bindings⟩)
termination_by structural members

theorem Value.apart_literalEach (values : List Value) (hvalues : ∀ v ∈ values, v.Apart lists)
    (henv : env.Apart lists) {context : Context} (hcontext : context.Apart lists) :
    (literalEach env context values).Apart lists fun _ => True := by
  match values with
  | [] => exact .pure trivial
  | value :: rest =>
    rw [List.forall_mem_cons] at hvalues
    rw [literalEach]
    refine (apart_write henv hcontext hvalues.1
      (Value.apart_json value hvalues.1 henv)).bind fun literal _ => ?_
    refine (Value.apart_literalEach rest hvalues.2 henv hcontext).bind fun literals _ => ?_
    exact .pure trivial
termination_by structural values

theorem Value.apart_json (value : Value) (hvalue : value.Apart lists) (henv : env.Apart lists) :
    (json env value).Apart lists fun _ => True := by
  match value with
  | .list _ items =>
    rw [json]
    refine (Value.apart_jsonEach items (Value.apart_list_iff.1 hvalue).2 henv).bind
      fun trees _ => ?_
    exact .pure trivial
  | .tuple items =>
    rw [json]
    refine (Value.apart_jsonEach items (Value.apart_tuple_iff.1 hvalue) henv).bind fun trees _ => ?_
    exact .pure trivial
  | .dict _ entries =>
    rw [json]
    refine (Value.apart_jsonEntries entries
      (fun entry h => (Value.apart_dict_iff.1 hvalue entry h).2) henv).bind fun members _ => ?_
    exact .pure trivial
  | .fragment f =>
    rw [json]
    refine (apart_inline
      (Fragment.apart_resolve f hvalue henv Context.apart_inlined 0)).bind fun text _ => ?_
    exact .pure trivial
  | .null | .bool _ | .float _ _ | .text _ => exact .pure trivial
  | .int n =>
    rw [json, Outcome.ofExcept_bind_pure]
    exact .ofExcept fun _ _ => trivial
  | .decimal _ _ | .dateTime _ | .date _ | .bytes _ _ | .object _ _ | .function _ =>
    refine (apart_showText _).bind fun text _ => ?_
    exact .pure trivial
termination_by structural value

theorem Value.apart_jsonEach (values : List Value) (hvalues : ∀ v ∈ values, v.Apart lists)
    (henv : env.Apart lists) : (jsonEach env values).Apart lists fun _ => True := by
  match values with
  | [] => exact .pure trivial
  | value :: rest =>
    rw [List.forall_mem_cons] at hvalues
    rw [jsonEach]
    refine (Value.apart_json value hvalues.1 henv).bind fun tree _ => ?_
    refine (Value.apart_jsonEach rest hvalues.2 henv).bind fun trees _ => ?_
    exact .pure trivial
termination_by structural values

theorem Value.apart_jsonEntries (entries : List (Value × Value))
    (hentries : ∀ entry ∈ entries, entry.2.Apart lists) (henv : env.Apart lists) :
    (jsonEntries env entries).Apart lists fun _ => True := by
  match entries with
  | [] => exact .pure trivial
  | (key, value) :: rest =>
    rw [List.forall_mem_cons] at hentries
    rw [jsonEntries]
    refine Outcome.Apart.bind (P := fun _ => True) (.ofExcept fun _ _ => trivial) fun name _ => ?_
    refine (Value.apart_json value hentries.1 henv).bind fun tree _ => ?_
    refine (Value.apart_jsonEntries rest hentries.2 henv).bind fun members _ => ?_
    exact .pure trivial
termination_by structural entries

theorem Value.apart_plainText (value : Value) (hvalue : value.Apart lists)
    (henv : env.Apart lists) : (plainText env value).Apart lists fun _ => True := by
  match value with
  | .fragment f =>
    rw [plainText]
    exact apart_inline (Fragment.apart_resolve f hvalue henv Context.apart_inlined 0)
  | .null | .bool _ | .int _ | .float _ _ | .text _ | .decimal _ _ | .dateTime _ | .date _
  | .bytes _ _ | .list _ _ | .tuple _ | .dict _ _ | .object _ _ | .function _ =>
    exact apart_showText _
termination_by structural value

end

theorem apart_format (henv : env.Apart lists) (handler : Journal.Handler) {kindName : String}
    {withParameters : Bool} {timezone method : Value} (htimezone : timezone.Apart lists)
    (hmethod : method.Apart lists) {record : Journal.Record}
    (hrecord : Journal.Record.ofEvent? (.rendering kindName withParameters timezone method) =
      some record) : (handler.format env record).Apart lists fun _ => True := by
  cases hrecord
  unfold Journal.Handler.format
  split
  · unfold Journal.Record.members
    rw [Journal.Record.text_of_arguments rfl, pure_bind]
    have hextra : ∀ field ∈ Journal.Record.settingFields (.bool withParameters) timezone method,
        field.2.Apart lists := by
      simp [Journal.Record.settingFields, htimezone, hmethod]
    refine (Outcome.Apart.mapM (Q := fun _ => True) fun field hfield => ?_).bind fun members _ => ?_
    · have hvalue := Journal.Record.forall_fields Value.apart_null Value.apart_text
        (Value.apart_text _) hextra _ field hfield
      exact (Value.apart_json field.2 hvalue henv).bind fun tree _ => .pure trivial
    · exact .pure trivial
  · unfold Journal.Record.line
    rw [Journal.Record.text_of_arguments rfl, pure_bind]
    exact .pure trivial

/-! ## Options -/

section

variable {setting : Setting} {fields : Entries Setting}

private theorem apart_toValue (h : setting.Apart lists) : setting.toValue.Apart lists := by
  cases setting with
  | value v => exact h
  | literalEscaper escaper =>
    cases escaper with
    | broken v => exact h
    | _ => exact fun _ _ _ => rfl
  | identifierEscaper escaper =>
    cases escaper with
    | broken v => exact h
    | _ => exact fun _ _ _ => rfl

private theorem apart_toLiteralEscaper (h : setting.Apart lists) :
    setting.toLiteralEscaper.Apart lists := by
  cases setting with
  | value v => exact h
  | literalEscaper escaper => exact h
  | identifierEscaper escaper => exact fun _ _ _ _ _ _ => .fail _

private theorem apart_toIdentifierEscaper (h : setting.Apart lists) :
    setting.toIdentifierEscaper.Apart lists := by
  cases setting with
  | value v => exact h
  | identifierEscaper escaper => exact h
  | literalEscaper escaper =>
    cases escaper with
    | standard =>
      intro env name henv hname
      have hcontext : (Context.inlined).Apart lists := Context.apart_inlined
      exact apart_write henv hcontext hname (Value.apart_json name hname henv)
    | custom => exact fun _ _ _ _ => .fail _
    | broken => exact fun _ _ _ _ => .fail _

private theorem apart_of_get (h : ∀ field ∈ fields, field.2.Apart lists) {name : String}
    (hget : fields.get? (.text name) = some setting) : setting.Apart lists := by
  obtain ⟨field, hfound, rfl⟩ := Option.map_eq_some_iff.1 hget
  exact h field (List.mem_of_find?_eq_some hfound)

theorem Context.apart_ofFields (h : ∀ field ∈ fields, field.2.Apart lists) :
    (Context.ofFields fields).Apart lists := by
  rw [Context.ofFields_eq]
  refine ⟨?_, ?_, ?_, ?_⟩
  · exact holds_of_setting trivial
      fun setting hget _ => apart_toLiteralEscaper (apart_of_get h hget)
  · exact holds_of_setting trivial
      fun setting hget _ => apart_toIdentifierEscaper (apart_of_get h hget)
  · exact holds_of_setting (Value.apart_text "Z")
      fun setting hget _ => apart_toValue (apart_of_get h hget)
  · cases hget : fields.get? (.text "method") with
    | none => exact Value.apart_null
    | some setting => exact apart_toValue (apart_of_get h hget)

theorem apart_inlinedFields (h : ∀ field ∈ fields, field.2.Apart lists) :
    ∀ field ∈ inlinedFields fields, field.2.Apart lists := by
  unfold inlinedFields
  induction fields with
  | nil => exact List.forall_mem_singleton.2 (Value.apart_bool false)
  | cons field rest ih =>
    rw [List.forall_mem_cons] at h
    rw [Entries.insert]
    split
    · exact List.forall_mem_cons.2 ⟨Value.apart_bool false, h.2⟩
    · exact List.forall_mem_cons.2 ⟨h.1, ih h.2⟩

end

end SqlFragments
