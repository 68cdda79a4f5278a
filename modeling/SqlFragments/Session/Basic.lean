import SqlFragments.Journal.Setup
import SqlFragments.Render.Options
import SqlFragments.Value.Sum

/-!
# Sessions

A session is a row of renders and changes by one user. It holds what is named, what templates
remember of their last render, the results that were handed out, what happened on the way, and
what the journal wrote down of it. Results are known by their place, because two results that
look alike may be two, and a change to one of them shows wherever it is remembered.
-/

namespace SqlFragments

/-- What a template remembers: the named settings of its last render and its result. -/
structure Slot where
  fields : Entries Setting
  result : Nat

/-- What a step hands out: a result, by its place, or another value; most steps hand out
nothing. -/
inductive Handout
  | result (place : Nat)
  | value (given : Value)

/-- The state of a session. `grown` is what separators took up in the present render. -/
structure Session where
  hostMinutes : Rat := 0
  names : List (String × Value) := []
  options : List (String × Options) := []
  slots : List (Label × Slot) := []
  results : List Result := []
  handouts : List Handout := []
  calls : List Event := []
  renders : List Label := []
  grown : List Change := []
  journal : Journal := {}
  lines : List (Journal.Target × Journal.Line) := []

namespace Options

/-- Makes a change wherever its thing stands in options. A mapping that is changed itself has
the new entries. -/
def apply (change : Change) : Options → Options
  | absent => absent
  | mapping label fields =>
    match change with
    | .entries l entries =>
      if l = label then mapping label (entries.map fun (key, v) => (key, .value v))
      else mapping label (fields.map fun (key, setting) => (key, setting.apply change))
    | change => mapping label (fields.map fun (key, setting) => (key, setting.apply change))
  | constructed settings => constructed (settings.apply change)
  | other v => other (v.apply change)

end Options

namespace Session

def value? (session : Session) (name : String) : Option Value :=
  session.names.lookup name

def rename {α : Type} (named : List (String × α)) (name : String) (a : α) : List (String × α) :=
  (name, a) :: named.filter (·.1 != name)

/-! ## Memory -/

/-- What the template with a label remembers, if it is for these settings. Finding that out
fails where a setting cannot be compared. -/
def stored? (session : Session) (label : Label) (fields : Entries Setting) :
    Except Failure (Option Nat) :=
  match session.slots.lookup label with
  | none => .ok none
  | some slot =>
    match fieldsAgree? slot.fields fields with
    | none => .error .badNumber
    | some agree => .ok (if agree then some slot.result else none)

def keep (session : Session) (result : Result) : Session × Nat :=
  ({ session with results := session.results ++ [result] }, session.results.length)

def remember (session : Session) (label : Label) (fields : Entries Setting) (place : Nat) :
    Session :=
  { session with
    slots := (label, ⟨fields, place⟩) :: session.slots.filter (·.1 != label) }

def environment (session : Session) : Environment where
  hostMinutes := session.hostMinutes
  remembered label :=
    (session.stored? label (inlinedFields [])).map fun place =>
      (place.bind fun place => session.results[place]?).map (·.sql)

/-! ## Changes -/

def change (session : Session) (change : Change) : Session :=
  { session with
    names := session.names.map fun (name, v) => (name, v.apply change)
    options := session.options.map fun (name, options) => (name, options.apply change)
    slots := session.slots.map fun (label, slot) =>
      (label, { slot with
        fields := slot.fields.map fun (key, setting) => (key, setting.apply change) })
    results := session.results.map (·.apply change)
    handouts := session.handouts.map fun
      | .value v => .value (v.apply change)
      | .result place => .result place
    calls := session.calls.map (·.apply change) }

def settle {α : Type} (session : Session) (apply : Change → α → α) (a : α) : α :=
  session.grown.foldl (fun a change => apply change a) a

def extend (session : Session) (separator added : Value) : Session :=
  let separator := session.settle Value.apply separator
  match separator.growth? (session.settle Value.apply added) with
  | some change =>
    let session := session.change change
    { session with grown := session.grown ++ [change] }
  | none => session

/-! ## Events -/

mutual

/-- Takes note of an event; `announce` takes note of a fragment that is about to be rendered. A
template that was written out inside a value is only rendered when it does not remember the
text already, and then it remembers it. -/
def note (announce : Session → Event → Session) (session : Session) : Event → Session
  | .rendering kindName withParameters timezone method =>
    announce session (.rendering kindName withParameters
      (session.settle Value.apply timezone) (session.settle Value.apply method))
  | .literalEscaped value timezone =>
    { session with
      calls := session.calls ++ [.literalEscaped (session.settle Value.apply value)
        (session.settle Value.apply timezone)] }
  | .identifierEscaped name =>
    { session with
      calls := session.calls ++ [.identifierEscaped (session.settle Value.apply name)] }
  | .leafRendered label => { session with renders := label :: session.renders }
  | .extended separator added => session.extend separator added
  | .inlined label trace result =>
    match session.stored? label (inlinedFields []) with
    | .ok none =>
      let session := noteAll announce session trace
      match result with
      | none => session
      | some result =>
        let (session, place) := session.keep (session.settle Result.apply result)
        session.remember label (inlinedFields []) place
    | _ => session
termination_by structural event => event

def noteAll (announce : Session → Event → Session) (session : Session) : List Event → Session
  | [] => session
  | event :: rest => noteAll announce (note announce session event) rest
termination_by structural trace => trace

end

/-- Writes a record down by some handlers in order. What happens while a handler writes it is
noted by `note`. A record that cannot be written is left out. -/
def writeDown (note : Session → List Event → Session) (record : Journal.Record) :
    Session → List Journal.Handler → Session
  | session, [] => session
  | session, handler :: rest =>
    let outcome := handler.format session.environment record
    let session := note session outcome.trace
    let session := match outcome.answer with
      | .ok line => { session with lines := session.lines ++ [(handler.target, line)] }
      | .error _ => session
    writeDown note record session rest

def announceWith (note : Session → List Event → Session) (session : Session) (event : Event) :
    Session :=
  match Journal.Record.ofEvent? event with
  | some record => writeDown note record session (session.journal.handlersAt record.level)
  | none => session

/-- Takes note of a trace. Writing a record down may render the fragments in its settings, which
is written down itself; under those renders the settings hold no fragments any more. -/
def witness (session : Session) (trace : List Event) : Session :=
  session.noteAll (announceWith (noteAll (announceWith fun session _ => session))) trace

def observe {α : Type} (session : Session) (outcome : Outcome α) : Session × Except Failure α :=
  ({ session with grown := [] }.witness outcome.trace, outcome.answer)

/-! ## Renders -/

def evaluateNow (session : Session) (target : Value) (options : Options) :
    Session × Except Failure Rendered :=
  match options.normalize with
  | .error cause => (session, .error cause)
  | .ok context =>
    let (session, answer) := session.observe (evaluate session.environment context target)
    (session, answer.map fun rendered => session.settle Rendered.apply rendered)

def keepRendered (session : Session) (rendered : Rendered) : Session × Handout :=
  match rendered with
  | .result result =>
    let (session, place) := session.keep result
    (session, .result place)
  | .other v => (session, .value v)

def evaluateAndKeep (session : Session) (target : Value) (options : Options) :
    Session × Except Failure Handout :=
  match session.evaluateNow target options with
  | (session, .error cause) => (session, .error cause)
  | (session, .ok rendered) =>
    let (session, handout) := session.keepRendered rendered
    (session, .ok handout)

/-- Renders a template by its memory: when the settings agree with those of its last render,
the result of that render is handed out again. -/
def renderTemplate (session : Session) (label : Label) (target : Value)
    (fields : Entries Setting) : Session × Except Failure Handout :=
  match session.stored? label fields with
  | .error cause => (session, .error cause)
  | .ok (some place) => (session, .ok (.result place))
  | .ok none =>
    match session.evaluateAndKeep target (.mapping 0 fields) with
    | (session, .error cause) => (session, .error cause)
    | (session, .ok (.result place)) =>
      (session.remember label fields place, .ok (.result place))
    | (session, .ok handout) => (session, .ok handout)

/-- Renders a fragment by its own render, which for a template goes by its memory. A fragment of
the user may hide its own render behind something that cannot be called. -/
def renderFragment (session : Session) (target : Value) (options : Options) :
    Session × Except Failure Handout :=
  match target with
  | .fragment (.template label _ _ _) =>
    match options.fields with
    | .error cause => (session, .error cause)
    | .ok fields => session.renderTemplate label target fields
  | .fragment f =>
    if f.hides "to_sql" then (session, .error .wrongType)
    else session.evaluateAndKeep target options
  | _ => (session, .error .missingAttribute)

def renderInlined (session : Session) (target : Value) (options : Options) :
    Session × Except Failure Handout :=
  match target with
  | .fragment f =>
    if f.hides "to_string" then (session, .error .wrongType)
    else match options.fields with
      | .error cause => (session, .error cause)
      | .ok fields =>
        match f with
        | .template label _ _ _ => session.renderTemplate label target (inlinedFields fields)
        | f =>
          if f.hides "to_sql" then (session, .error .wrongType)
          else session.evaluateAndKeep target (.mapping 0 (inlinedFields fields))
  | _ => (session, .error .missingAttribute)

def growBindings (session : Session) (place : Nat) (added : Value) : Session :=
  { session with
    results := session.results.modify place fun r => { r with bindings := r.bindings ++ [added] } }

end Session

end SqlFragments
