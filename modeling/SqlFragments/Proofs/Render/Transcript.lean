import SqlFragments.Proofs.Render.Leaf
import SqlFragments.Proofs.Render.Steps
import SqlFragments.Render.Recorder

/-!
# Transcripts

With escapers that record how they are called, and leaves that count how often they are rendered, a
render leaves a transcript. It follows the tree: whatever stands in it is evaluated once, from left
to right, also where no text comes of it.
-/

namespace SqlFragments

open Outcome

variable {α β : Type} {env : Environment} {context : Context}

/-! ## Notes -/

/-- What is put down of a render: that a fragment begins to render, that a leaf counts one more
render, that a name or a value is written. -/
inductive Note
  | rendering (kindName : String)
  | counted (label : Label)
  | named (name : Value)
  | written (value timezone : Value)

def Event.note? : Event → Option Note
  | .rendering kindName _ _ _ => some (.rendering kindName)
  | .leafRendered label => some (.counted label)
  | .identifierEscaped name => some (.named name)
  | .literalEscaped value timezone => some (.written value timezone)
  | .extended _ _ => none
  | .inlined _ _ _ => none

def Outcome.notes (outcome : Outcome α) : List Note := outcome.trace.filterMap Event.note?

namespace Outcome

@[simp]
theorem notes_pure (a : α) : (pure a : Outcome α).notes = [] := rfl

@[simp]
theorem notes_ofExcept (answer : Except Failure α) : (ofExcept answer).notes = [] := rfl

theorem notes_bind {x : Outcome α} {f : α → Outcome β} {a : α} (h : x.answer = .ok a) :
    (x >>= f).notes = x.notes ++ (f a).notes := by
  rw [notes, trace_bind_ok x f a h, List.filterMap_append]
  rfl

theorem notes_bind_left {x : Outcome α} {f : α → Outcome β} (h : ∀ a, (f a).notes = []) :
    (x >>= f).notes = x.notes := by
  cases hx : x.answer with
  | error cause => rw [notes, trace_bind_error x f cause hx, notes]
  | ok a => rw [notes_bind hx, h, List.append_nil]

theorem notes_ofExcept_bind {answer : Except Failure α} {f : α → Outcome β}
    (h : ∀ a, (f a).notes = []) : (ofExcept answer >>= f).notes = [] :=
  (notes_bind_left h).trans (notes_ofExcept answer)

end Outcome

theorem notes_enter {f : Fragment} (h : context.allow f = .ok ()) :
    (context.enter f).notes = [.rendering f.kindName] := by
  rw [enter_of_ok h]
  rfl

/-! ## Values without fragments -/

mutual

/-- Whether no fragment stands anywhere in a value. -/
def Value.isPure : Value → Bool
  | .list _ items => Value.arePure items
  | .tuple items => Value.arePure items
  | .dict _ entries => Value.entriesPure entries
  | .fragment _ => false
  | _ => true
termination_by structural v => v

def Value.arePure : List Value → Bool
  | [] => true
  | value :: rest => Value.isPure value && Value.arePure rest
termination_by structural vs => vs

def Value.entriesPure : List (Value × Value) → Bool
  | [] => true
  | (key, value) :: rest => Value.isPure key && Value.isPure value && Value.entriesPure rest
termination_by structural entries => entries

end

/-- What comes to the same in every environment, with no trace. -/
def Outcome.Fixed (outcome : Environment → Outcome α) : Prop :=
  ∃ answer, ∀ env, outcome env = .ofExcept answer

namespace Outcome.Fixed

protected theorem pure (a : α) : Fixed fun _ => (pure a : Outcome α) := ⟨.ok a, fun _ => rfl⟩

protected theorem bind {outcome : Environment → Outcome α} {next : Environment → α → Outcome β}
    (first : Fixed outcome) (later : ∀ a, Fixed fun env => next env a) :
    Fixed fun env => outcome env >>= next env := by
  obtain ⟨answer, hfirst⟩ := first
  simp only [Fixed, hfirst]
  cases answer with
  | error cause => exact ⟨.error cause, fun _ => rfl⟩
  | ok a =>
    obtain ⟨answer, hlater⟩ := later a
    exact ⟨answer, fun env => (pure_bind a _).trans (hlater env)⟩

protected theorem mapM {next : Environment → α → Outcome β} {as : List α}
    (h : ∀ a ∈ as, Fixed fun env => next env a) : Fixed fun env => as.mapM (next env) := by
  induction as with
  | nil => exact .pure _
  | cons a as ih =>
    rw [List.forall_mem_cons] at h
    simp only [List.mapM_cons]
    exact h.1.bind fun b => (ih h.2).bind fun bs => .pure _

theorem trace_eq_nil {outcome : Environment → Outcome α} (h : Fixed outcome) (env : Environment) :
    (outcome env).trace = [] := by
  obtain ⟨answer, h⟩ := h
  rw [h env]
  rfl

end Outcome.Fixed

theorem fixed_ofExcept (answer : Except Failure α) : Fixed fun _ => Outcome.ofExcept answer :=
  ⟨answer, fun _ => rfl⟩

mutual

theorem fixed_json (value : Value) (h : value.isPure = true) : Fixed fun env => json env value := by
  match value with
  | .list _ items | .tuple items =>
    simp only [json]
    exact (fixed_jsonEach items h).bind fun _ => .pure _
  | .dict _ entries =>
    simp only [json]
    exact (fixed_jsonEntries entries h).bind fun _ => .pure _
  | .fragment f => cases h
  | .dateTime _ | .date _ | .bytes _ _ | .decimal _ _ | .object _ _ | .function _ =>
    simp only [json]
    exact (fixed_ofExcept _).bind fun _ => .pure _
  | .int n => exact (fixed_ofExcept (Number.Whole.ofInt n)).bind fun _ => .pure _
  | .null | .bool _ | .float _ _ | .text _ => exact .pure _
termination_by structural value

private theorem fixed_jsonEach (items : List Value) (h : Value.arePure items = true) :
    Fixed fun env => jsonEach env items := by
  match items with
  | [] => exact .pure _
  | value :: rest =>
    rw [Value.arePure, Bool.and_eq_true] at h
    simp only [jsonEach]
    exact (fixed_json value h.1).bind fun _ => (fixed_jsonEach rest h.2).bind fun _ => .pure _
termination_by structural items

private theorem fixed_jsonEntries (entries : List (Value × Value))
    (h : Value.entriesPure entries = true) : Fixed fun env => jsonEntries env entries := by
  match entries with
  | [] => exact .pure _
  | (key, value) :: rest =>
    rw [Value.entriesPure, Bool.and_eq_true, Bool.and_eq_true] at h
    simp only [jsonEntries]
    exact (fixed_ofExcept (Json.key key)).bind fun _ => (fixed_json value h.1.2).bind fun _ =>
      (fixed_jsonEntries rest h.2).bind fun _ => .pure _
termination_by structural entries

end

theorem fixed_plainText {value : Value} (h : value.isPure = true) :
    Fixed fun env => plainText env value := by
  cases value with
  | fragment f => cases h
  | _ => exact fixed_ofExcept _

theorem trace_literal {value : Value} (timezone : Value) (h : value.isPure = true) :
    (literal env value timezone).trace = [] := by
  rw [literal, LiteralEscaper.write]
  split
  · exact ((fixed_ofExcept _).bind fun _ => .pure _).trace_eq_nil env
  · exact ((fixed_json value h).bind fun _ => .pure _).trace_eq_nil env

private theorem notes_of_trace {outcome : Outcome α} (h : outcome.trace = []) :
    outcome.notes = [] := by
  rw [Outcome.notes, h]
  rfl

/-! ## Escapers that record -/

/-- Both escapers put down each call, and nothing else is put down for it. -/
structure Context.Records (env : Environment) (context : Context) : Prop where
  written {value : Value} (h : value.isPure = true) :
    (context.escape.write env value context.timezone fun _ => json env value).notes =
      [.written value context.timezone]
  named (name : Value) : (context.escapeId.write env name).notes = [.named name]

theorem Context.Records.of_recording {label label' : Label}
    {write : Environment → Value → Value → Outcome Value} {write' : Value → Outcome Value}
    (hescape : context.escape = .recording label write)
    (hescapeId : context.escapeId = .recording label' write')
    (hwrite : ∀ value, value.isPure = true → (write env value context.timezone).notes = [])
    (hwrite' : ∀ name, (write' name).notes = []) : context.Records env where
  written {value} h := by
    rw [hescape]
    refine (notes_bind rfl).trans ?_
    rw [hwrite value h]
    rfl
  named name := by
    rw [hescapeId]
    refine (notes_bind rfl).trans ?_
    rw [hwrite' name]
    rfl

theorem Context.Records.of_library {label label' : Label} {answer answer' : Value}
    (hescape : context.escape = .recordingStandard label ∨
      context.escape = .recordingConstant label answer ∨
      context.escape = .recordingZone label ∧ context.timezone.isPure = true)
    (hescapeId : context.escapeId = .recordingBackticks label' ∨
      context.escapeId = .recordingConstant label' answer') : context.Records env := by
  have hescapeId : ∃ write', context.escapeId = .recording label' write' ∧
      ∀ name, (write' name).notes = [] := by
    rcases hescapeId with hbackticks | hconstant
    · exact ⟨_, hbackticks, fun name => rfl⟩
    · exact ⟨_, hconstant, fun name => rfl⟩
  obtain ⟨write', hescapeId, hwrite'⟩ := hescapeId
  rcases hescape with hstandard | hconstant | ⟨hzone, htimezone⟩
  · refine .of_recording hstandard hescapeId (fun value h => ?_) hwrite'
    exact notes_of_trace (trace_literal _ h)
  · exact .of_recording hconstant hescapeId (fun value h => rfl) hwrite'
  · refine .of_recording hzone hescapeId (fun value h => ?_) hwrite'
    have hzone := notes_of_trace ((fixed_plainText htimezone).trace_eq_nil env)
    have hliteral : (literal env value context.timezone).notes = [] :=
      notes_of_trace (trace_literal context.timezone h)
    rw [← hzone]
    apply notes_bind_left
    intro zone
    rw [← hliteral]
    apply notes_bind_left
    intro written
    cases written <;> rfl

/-! ## Trees over leaves that count -/

mutual

/-- A tree of what the library makes, over leaves that count how often they are rendered. No
fragment stands inside a text that is taken over or a value to bind. -/
def Fragment.isCounted : Fragment → Bool
  | .raw value => value.isPure
  | .identifier _ => true
  | .parameter value => value.isPure
  | .parameterList values _ => Value.arePure values
  | .columnList _ _ => true
  | .lines members _ => Value.areCounted members
  | .clause _ value => Value.isCounted value
  | .template _ _ _ values => Value.areCounted values
  | .leaf _ .counting _ [] _ => true
  | _ => false
termination_by structural f => f

def Value.isCounted : Value → Bool
  | .fragment f => Fragment.isCounted f
  | value => value.isPure
termination_by structural v => v

def Value.areCounted : List Value → Bool
  | [] => true
  | value :: rest => Value.isCounted value && Value.areCounted rest
termination_by structural vs => vs

end

theorem isPure_of_isPlain {value : Value} (hplain : value.isPlain = true)
    (hcounted : value.isCounted = true) : value.isPure = true := by
  cases value with
  | fragment f => cases hplain
  | _ => exact hcounted

mutual

def Fragment.contents : Fragment → List Value
  | .lines members _ => Value.occurrencesEach members
  | .clause _ value => Value.occurrences value
  | .template _ _ _ values => Value.promotedOccurrences values
  | _ => []
termination_by structural f => f

/-- Everything that is evaluated for a thing: itself, and then what stands in it. -/
def Value.occurrences : Value → List Value
  | .fragment f => .fragment f :: Fragment.contents f
  | value => [value]
termination_by structural v => v

def Value.occurrencesEach : List Value → List Value
  | [] => []
  | value :: rest => Value.occurrences value ++ Value.occurrencesEach rest
termination_by structural vs => vs

def Value.promotedOccurrences : List Value → List Value
  | [] => []
  | value :: rest =>
    (if value.isPlain then [.fragment (.parameter value)] else Value.occurrences value) ++
      Value.promotedOccurrences rest
termination_by structural vs => vs

end

def Fragment.ownNotes (context : Context) : Fragment → List Note
  | .identifier name => [.named (.text name)]
  | .parameter value => if context.withParameters then [] else [.written value context.timezone]
  | .parameterList values _ =>
    if context.withParameters then [] else values.map (Note.written · context.timezone)
  | .columnList columns _ => columns.map .named
  | .leaf label _ _ _ _ => [.counted label]
  | _ => []

def Value.ownNotes (context : Context) : Value → List Note
  | .text s => if context.withParameters then [] else [.written (.text s) context.timezone]
  | .fragment f => .rendering f.kindName :: f.ownNotes context
  | _ => []

/-! ## The transcript of a tree -/

section

variable (hrecords : context.Records env)

include hrecords

private theorem notes_bindValue {value : Value} (h : value.isPure = true) :
    (context.bind env value fun _ => json env value).notes =
      (Fragment.parameter value).ownNotes context := by
  rw [Context.bind, Fragment.ownNotes]
  split
  · rfl
  · rw [notes_bind_left fun _ => rfl]
    exact hrecords.written h

private theorem notes_parameter {value : Value} {result : Result} (h : value.isPure = true)
    (hok : (context.parameter env value fun _ => json env value).answer = .ok result) :
    (context.parameter env value fun _ => json env value).notes =
      (Value.fragment (.parameter value)).ownNotes context := by
  obtain ⟨_, henter, _⟩ := answer_bind_eq_ok.1 hok
  rw [Context.parameter, notes_bind henter, notes_bindValue hrecords h,
    notes_enter (answer_enter (.parameter value) ▸ henter)]
  rfl

private theorem notes_literalEach {values written : List Value} (h : Value.arePure values = true)
    (hok : (literalEach env context values).answer = .ok written) :
    (literalEach env context values).notes = values.map (Note.written · context.timezone) := by
  induction values generalizing written with
  | nil => rfl
  | cons value rest ih =>
    rw [Value.arePure, Bool.and_eq_true] at h
    rw [literalEach] at hok ⊢
    obtain ⟨_, hfirst, hok⟩ := answer_bind_eq_ok.1 hok
    obtain ⟨_, hrest, _⟩ := answer_bind_eq_ok.1 hok
    rw [notes_bind hfirst, hrecords.written h.1, notes_bind_left fun _ => rfl, ih h.2 hrest]
    rfl

private theorem notes_renderList {separator : Value} {values : List Value} {result : Result}
    (h : Value.arePure values = true)
    (hok : (renderList env context separator values).answer = .ok result) :
    (renderList env context separator values).notes =
      (Fragment.parameterList values separator).ownNotes context := by
  rw [renderList] at hok ⊢
  rw [Fragment.ownNotes]
  split at hok
  · next hparam =>
    rw [if_pos hparam, if_pos hparam]
    exact notes_ofExcept_bind fun _ => rfl
  · next hparam =>
    rw [if_neg hparam, if_neg hparam]
    obtain ⟨_, hcan, hok⟩ := answer_bind_eq_ok.1 hok
    obtain ⟨_, hpieces, _⟩ := answer_bind_eq_ok.1 hok
    rw [notes_bind hcan, notes_bind_left fun _ => notes_ofExcept_bind fun _ => rfl,
      notes_literalEach hrecords h hpieces]
    rfl

private theorem notes_writeNames {names written : List Value}
    (hok : (names.mapM (context.escapeId.write env)).answer = .ok written) :
    (names.mapM (context.escapeId.write env)).notes = names.map .named := by
  induction names generalizing written with
  | nil => rfl
  | cons name rest ih =>
    rw [List.mapM_cons] at hok ⊢
    obtain ⟨_, hfirst, hok⟩ := answer_bind_eq_ok.1 hok
    obtain ⟨_, hrest, _⟩ := answer_bind_eq_ok.1 hok
    rw [notes_bind hfirst, hrecords.named, notes_bind_left fun _ => rfl, ih hrest]
    rfl

end

private theorem notes_lengthen (separator : Value) (isLast : Bool) (sql line : Value) :
    (lengthen separator isLast sql line).notes = [] := by
  have hextend : ∀ separator sql added, (extendLines separator sql added).notes = [] := by
    intro separator sql added
    rw [extendLines, ← notes_ofExcept (sql.plus added)]
    apply notes_bind_left
    intro extended
    split <;> rfl
  rw [lengthen]
  split
  · rw [appendLine, ← hextend separator (if sql.isTruthy then sql else separator) line]
    apply notes_bind_left
    intro extended
    dsimp only
    split
    · rw [← notes_ofExcept (closingSeparator separator)]
      exact notes_bind_left fun _ => hextend _ _ _
    · rw [← notes_pure]
      exact notes_bind_left fun _ => hextend _ _ _
  · rfl

mutual

private theorem notes_of_resolve (hrecords : context.Records env) {depth : Nat}
    {rendered : Rendered} (f : Fragment) (hcounted : f.isCounted = true)
    (hok : (resolve env context depth f).answer = .ok rendered) :
    (resolve env context depth f).notes =
      (Value.fragment f).ownNotes context ++ f.contents.flatMap (Value.ownNotes context) := by
  match f with
  | .raw value =>
    rw [resolve_raw] at hok ⊢
    obtain ⟨_, henter, hok⟩ := answer_bind_eq_ok.1 hok
    have hverbatim : (verbatimText env value).notes = [] := by
      cases value with
      | null => rfl
      | _ => exact notes_of_trace ((fixed_plainText hcounted).trace_eq_nil env)
    rw [notes_bind henter, notes_enter (answer_enter _ ▸ henter), notes_bind_left fun _ => rfl,
      hverbatim]
    rfl
  | .identifier name =>
    rw [resolve] at hok ⊢
    obtain ⟨_, henter, hok⟩ := answer_bind_eq_ok.1 hok
    rw [notes_bind henter, notes_enter (answer_enter _ ▸ henter), notes_bind_left fun _ => rfl,
      hrecords.named]
    rfl
  | .parameter value =>
    rw [resolve] at hok ⊢
    obtain ⟨_, hparameter, _⟩ := answer_bind_eq_ok.1 hok
    rw [notes_bind_left fun _ => rfl, notes_parameter hrecords hcounted hparameter]
    exact (List.append_nil _).symm
  | .parameterList values separator =>
    rw [resolve_parameterList] at hok ⊢
    obtain ⟨_, henter, hok⟩ := answer_bind_eq_ok.1 hok
    obtain ⟨_, hlist, _⟩ := answer_bind_eq_ok.1 hok
    rw [notes_bind henter, notes_enter (answer_enter _ ▸ henter), notes_bind_left fun _ => rfl,
      notes_renderList hrecords hcounted hlist]
    exact (List.append_nil _).symm
  | .columnList columns separator =>
    rw [resolve] at hok ⊢
    obtain ⟨_, henter, hok⟩ := answer_bind_eq_ok.1 hok
    obtain ⟨_, hcan, hok⟩ := answer_bind_eq_ok.1 hok
    obtain ⟨_, hnames, _⟩ := answer_bind_eq_ok.1 hok
    rw [notes_bind henter, notes_enter (answer_enter _ ▸ henter), notes_bind hcan,
      notes_bind_left fun _ => notes_ofExcept_bind fun _ => rfl, notes_writeNames hrecords hnames]
    exact (List.append_nil _).symm
  | .lines members separator =>
    rw [resolve] at hok ⊢
    obtain ⟨_, henter, hok⟩ := answer_bind_eq_ok.1 hok
    obtain ⟨_, hlines, _⟩ := answer_bind_eq_ok.1 hok
    rw [notes_bind henter, notes_enter (answer_enter _ ▸ henter), notes_bind_left fun _ => rfl,
      notes_of_linesFrom hrecords members hcounted hlines]
    rfl
  | .clause strings value =>
    rw [resolve_clause] at hok ⊢
    obtain ⟨_, henter, hok⟩ := answer_bind_eq_ok.1 hok
    obtain ⟨rendered, hvalue, hok⟩ := answer_bind_eq_ok.1 hok
    rw [notes_bind henter, notes_enter (answer_enter _ ▸ henter), notes_bind hvalue,
      notes_of_evaluate hrecords value hcounted hvalue]
    rw [Rendered.expect, notes_ofExcept_bind fun _ => notes_ofExcept_bind fun _ => rfl]
    exact congrArg _ (List.append_nil _)
  | .template label form strings values =>
    rw [resolve] at hok ⊢
    obtain ⟨_, henter, hok⟩ := answer_bind_eq_ok.1 hok
    obtain ⟨rendered, hvalues, hok⟩ := answer_bind_eq_ok.1 hok
    rw [notes_bind henter, notes_enter (answer_enter _ ▸ henter), notes_bind hvalues,
      notes_of_promotedEach hrecords values hcounted hvalues, notes_ofExcept_bind fun _ => rfl]
    exact congrArg _ (List.append_nil _)
  | .leaf label .counting text [] assigned =>
    rw [resolve_leaf] at hok ⊢
    obtain ⟨_, henter, hok⟩ := answer_bind_eq_ok.1 hok
    obtain ⟨_, hcan, hok⟩ := answer_bind_eq_ok.1 hok
    rw [notes_bind henter, notes_enter (answer_enter _ ▸ henter), notes_bind hcan]
    rfl
  | .leaf _ .counting _ (_ :: _) _ | .leaf _ .silent _ _ _ | .probe _ _ | .deferred _ _ _
  | .endless _ _ | .unrenderable _ _ _ => cases hcounted
termination_by structural f

/-- Whatever is evaluated is put down once, in the order of the tree. -/
theorem notes_of_evaluate (hrecords : context.Records env) {rendered : Rendered} (target : Value)
    (hcounted : target.isCounted = true)
    (hok : (evaluate env context target).answer = .ok rendered) :
    (evaluate env context target).notes =
      target.occurrences.flatMap (Value.ownNotes context) := by
  match target with
  | .null => rfl
  | .text s =>
    rw [evaluate] at hok ⊢
    rw [Value.occurrences, List.flatMap_singleton, Value.ownNotes]
    · split at hok
      · next hparam =>
        rw [if_pos hparam, if_pos hparam]
        rfl
      · next hparam =>
        rw [if_neg hparam, if_neg hparam]
        split at hok
        · next hescape =>
          have hbind : (context.bind env (.text s) fun _ => json env (.text s)).notes = _ :=
            notes_bindValue hrecords rfl
          rw [Fragment.ownNotes, if_neg hparam] at hbind
          rw [if_pos hescape, notes_bind_left fun _ => rfl]
          exact hbind
        · cases hok
    · exact fun _ h => by cases h
  | .fragment f =>
    rw [evaluate] at hok ⊢
    rw [notes_of_resolve hrecords f hcounted hok, Value.occurrences, List.flatMap_cons]
  | .bool _ | .int _ | .float _ _ | .decimal _ _ | .dateTime _ | .date _ | .bytes _ _ | .list _ _
  | .tuple _ | .dict _ _ | .object _ _ | .function _ => cases hok
termination_by structural target

private theorem notes_of_promotedEach (hrecords : context.Records env) {rendered : List Rendered}
    (values : List Value) (hcounted : Value.areCounted values = true)
    (hok : (promotedEach env context values).answer = .ok rendered) :
    (promotedEach env context values).notes =
      (Value.promotedOccurrences values).flatMap (Value.ownNotes context) := by
  match values with
  | [] => rfl
  | value :: rest =>
    rw [Value.areCounted, Bool.and_eq_true] at hcounted
    rw [promotedEach_cons] at hok ⊢
    obtain ⟨first, hfirst, hok⟩ := answer_bind_eq_ok.1 hok
    obtain ⟨others, hothers, _⟩ := answer_bind_eq_ok.1 hok
    rw [notes_bind hfirst, notes_bind_left fun _ => rfl,
      notes_of_promotedEach hrecords rest hcounted.2 hothers, Value.promotedOccurrences,
      List.flatMap_append]
    congr 1
    rw [promote] at hfirst ⊢
    split at hfirst
    · next hplain =>
      rw [if_pos hplain, if_pos hplain, notes_bind_left fun _ => rfl, List.flatMap_singleton]
      obtain ⟨_, hparameter, _⟩ := answer_bind_eq_ok.1 hfirst
      exact notes_parameter hrecords (isPure_of_isPlain hplain hcounted.1) hparameter
    · next hplain =>
      rw [if_neg hplain, if_neg hplain]
      exact notes_of_evaluate hrecords value hcounted.1 hfirst
termination_by structural values

private theorem notes_of_linesFrom (hrecords : context.Records env) {separator sql : Value}
    {bindings : List Value} {result : Result} (members : List Value)
    (hcounted : Value.areCounted members = true)
    (hok : (linesFrom env context separator sql bindings members).answer = .ok result) :
    (linesFrom env context separator sql bindings members).notes =
      (Value.occurrencesEach members).flatMap (Value.ownNotes context) := by
  match members with
  | [] => rfl
  | member :: rest =>
    rw [Value.areCounted, Bool.and_eq_true] at hcounted
    rw [linesFrom_cons] at hok ⊢
    obtain ⟨rendered, hmember, hok⟩ := answer_bind_eq_ok.1 hok
    obtain ⟨inner, hinner, hok⟩ := answer_bind_eq_ok.1 hok
    obtain ⟨extended, hextended, hok⟩ := answer_bind_eq_ok.1 hok
    rw [notes_bind hmember, notes_bind hinner, notes_bind hextended, notes_lengthen,
      notes_of_evaluate hrecords member hcounted.1 hmember,
      notes_of_linesFrom hrecords rest hcounted.2 hok, Value.occurrencesEach, List.flatMap_append]
    rfl
termination_by structural members

end

end SqlFragments
