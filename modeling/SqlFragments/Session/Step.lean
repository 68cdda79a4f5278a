import SqlFragments.Literal.OfValue
import SqlFragments.Session.Basic

/-!
# Steps of a session

What a user can do in a session, and what comes back. A step that fails leaves the session as
it was, but for what already happened on the way.
-/

namespace SqlFragments

/-- The ways to render a thing: with placeholders as the options say, by the thing's own
render, or as text with every value as a literal; and the ways to show it in a message. -/
inductive Manner
  | evaluate
  | own
  | inlined
  | plainText
  | inspect
  | inspectResult

/-- What a user does. Steps are counted from zero, and from the last one back below zero. -/
inductive Step
  | name (name : String) (value : Value)
  | nameOptions (name : String) (options : Options)
  | setOption (name key : String) (setting : Setting)
  | removeOption (name key : String)
  | replace (name source : String) (changes : List (String × Setting))
  | normalize (options : Options)
  | render (manner : Manner) (target : Value) (options : Options)
  | pushBinding (step : Int) (value : Value)
  | push (name : String) (value : Value)
  | countRenders (name : String)
  | takeCalls
  | compare (left right : Value)
  | compareResults (left right : Int)
  | kind (value : Value)
  | assign (target : Value) (field : String) (value : Value)

inductive Reply
  | value (value : Value)
  | done
  | context (context : Context)
  | result (result : Result) (sameAs : Option Nat)
  | plain (value : Value)
  | bindings (bindings : List Value)
  | renders (count : Value)
  | calls (calls : List Event)
  | equal (equal : Bool)
  | kind (kind : Kind)

def Result.equal? (a b : Result) : Option Bool :=
  Value.andAlso (a.sql.same? b.sql) fun _ =>
    Value.andAlso ((Value.list 0 a.bindings).equal? (.list 0 b.bindings)) fun _ =>
      a.method.same? b.method

def decided : Option Bool → Except Failure Bool
  | some equal => .ok equal
  | none => .error .badNumber

def Result.inspect (result : Result) : String :=
  "SQLResult(" ++ result.sql.inspect ++ ", bindings=" ++
    bracketed "[" "]" (Value.inspectEach result.bindings) ++ ")"

def Result.obstacle? (result : Result) : Option Obstacle :=
  result.sql.obstacle?.or (Value.obstacleAmong? result.bindings)

def Rendered.inspect : Rendered → Except Failure String
  | result r => match r.obstacle? with
    | none => .ok r.inspect
    | some obstacle => .error (.ofObstacle obstacle)
  | other v => v.shown v.inspect

/-! ## Changed options -/

namespace Calendar

def changedNumber (changes : List (String × Setting)) (name : String) (old : Nat) :
    Except Failure Int :=
  match changes.reverse.lookup name with
  | none => .ok old
  | some (.value (.int n)) => if 0x80000000 ≤ n.natAbs then .error .numberTooLarge else .ok n
  | some (.value (.bool b)) => .ok (if b then 1 else 0)
  | some _ => .error .wrongType

def checkNames (known : List String) (changes : List (String × Setting)) : Except Failure Unit :=
  if changes.all fun change => known.contains change.1 then .ok () else .error .wrongType

def Date.changed (d : Date) (changes : List (String × Setting)) : Except Failure Date := do
  let year ← changedNumber changes "year" d.year
  let month ← changedNumber changes "month" d.month
  let day ← changedNumber changes "day" d.day
  checkNames ["year", "month", "day"] changes
  match Date.ofNumbers? year.toNat month.toNat day.toNat with
  | some date => return date
  | none => throw .badValue

def DateTime.changed (m : DateTime) (changes : List (String × Setting)) :
    Except Failure DateTime := do
  let year ← changedNumber changes "year" m.date.year
  let month ← changedNumber changes "month" m.date.month
  let day ← changedNumber changes "day" m.date.day
  let hour ← changedNumber changes "hour" m.time.hour
  let minute ← changedNumber changes "minute" m.time.minute
  let second ← changedNumber changes "second" m.time.second
  let microsecond ← changedNumber changes "microsecond" m.time.microsecond
  let fold ← changedNumber changes "fold" 0
  checkNames ["year", "month", "day", "hour", "minute", "second", "microsecond", "tzinfo", "fold"]
    changes
  let offset ← match changes.reverse.lookup "tzinfo" with
    | none => pure m.offset
    | some (.value .null) => pure none
    | some _ => throw .wrongType
  if [hour, minute, second, microsecond].any (· < 0) then throw .badValue
  match Date.ofNumbers? year.toNat month.toNat day.toNat,
      TimeOfDay.ofNumbers? hour.toNat minute.toNat second.toNat microsecond.toNat with
  | some date, some time =>
    if fold = 0 ∨ fold = 1 then return ⟨date, time, offset⟩ else throw .badValue
  | _, _ => throw .badValue

end Calendar

/-- Options with some parts changed. Contexts and dates have named parts; in texts and bytes
something else is replaced. -/
def Options.changed (options : Options) (changes : List (String × Setting)) :
    Except Failure Options :=
  match options with
  | constructed settings => (settings.setAll changes).map constructed
  | other (.date d) => (d.changed changes).map fun d => other (.date d)
  | other (.dateTime m) => (m.changed changes).map fun m => other (.dateTime m)
  | other (.text _) | other (.bytes .fixed _) | other (.bytes (.changeable _) _) =>
    .error .wrongType
  | _ => .error .missingAttribute

namespace Session

/-! ## Handing out -/

/-- The first earlier step that handed out the result at a place. -/
def firstHandout? (session : Session) (place : Nat) : Option Nat :=
  session.handouts.findIdx? fun
    | .result p => p == place
    | _ => false

def resultAt (session : Session) (place : Nat) : Except Failure Result :=
  match session.results[place]? with
  | some result => .ok result
  | none => .error .indexOutOfRange

def replyTo (session : Session) : Handout → Except Failure Reply
  | .result place => do
    return .result (← session.resultAt place) (session.firstHandout? place)
  | .value v => .ok (.plain v)

def handOut (session : Session) (answer : Except Failure Handout) :
    Session × Except Failure (Reply × Handout) :=
  (session, do
    let handout ← answer
    return (← session.replyTo handout, handout))

def handOutValue (v : Value) : Reply × Handout := (.plain v, .value v)

def handOutText (session : Session) (answer : Except Failure Handout) :
    Session × Except Failure (Reply × Handout) :=
  (session, do
    match ← answer with
    | .result place => return handOutValue (← session.resultAt place).sql
    | .value _ => throw .missingAttribute)

def render (session : Session) (manner : Manner) (target : Value) (options : Options) :
    Session × Except Failure (Reply × Handout) :=
  match manner with
  | .evaluate =>
    let (session, answer) := session.evaluateAndKeep target options
    session.handOut answer
  | .own =>
    let (session, answer) := session.renderFragment target options
    session.handOut answer
  | .inlined =>
    let (session, answer) := session.renderInlined target options
    session.handOutText answer
  | .plainText =>
    let (session, answer) := session.observe (SqlFragments.plainText session.environment target)
    (session, answer.map fun s => handOutValue (.text s))
  | .inspect =>
    (session, (target.shown target.inspect).map fun s => handOutValue (.text s))
  | .inspectResult =>
    let (session, answer) := session.evaluateNow target options
    (session, do return handOutValue (.text (← (← answer).inspect)))

/-! ## Changes -/

/-- Sets the entries of a mapping wherever the mapping stands, also as a dictionary. -/
def setEntries (session : Session) (label : Label) (fields : Entries Setting) : Session :=
  let session := session.change
    (.entries label (fields.map fun (key, setting) => (key, setting.toValue)))
  { session with
    options := session.options.map fun (name, options) => (name, match options with
      | .mapping l old => .mapping l (if l = label then fields else old)
      | other => other) }

def changeMapping (session : Session) (name : String)
    (change : Entries Setting → Except Failure (Entries Setting)) :
    Except Failure Session := do
  match session.options.lookup name with
  | none => throw .missingKey
  | some (.mapping label fields) => return session.setEntries label (← change fields)
  | some _ => throw .wrongType

/-- Options that are given as a value. A dictionary that has options for a name is these. -/
def optionsOf (session : Session) (v : Value) : Options :=
  match Options.ofValue v with
  | .mapping label fields =>
    let known := session.options.findSome? fun
      | (_, .mapping l fields) => if l = label then some fields else none
      | _ => none
    .mapping label (known.getD fields)
  | options => options

def handoutAt (session : Session) (step : Int) : Except Failure Handout :=
  let place := if step < 0 then session.handouts.length + step else step
  match if place < 0 then none else session.handouts[place.toNat]? with
  | some handout => .ok handout
  | none => .error .indexOutOfRange

def handoutsEqual (session : Session) (left right : Int) : Except Failure Bool := do
  match ← session.handoutAt left, ← session.handoutAt right with
  | .result p, .result q => decided ((← session.resultAt p).equal? (← session.resultAt q))
  | .value a, .value b => decided (a.equal? b)
  | _, _ => return false

/-- The number of renders of a fragment of the user: those that were counted, on top of what was
assigned as their count. -/
def rendersOf (session : Session) (f : Fragment) : Except Failure Value :=
  match f, f.assigned.lookup "renders" with
  | .leaf label .counting _ _ _, assigned =>
    (List.range (session.renders.count label)).foldlM (fun count _ => count.plus (.int 1))
      (assigned.getD (.int 0))
  | _, some assigned => .ok assigned
  | _, none => .error .missingAttribute

/-- Assigns a field. Objects and fragments of the user take any, but for what makes them what
they are; fragments of the library take none. -/
def assign (session : Session) (target : Value) (name : String) (value : Value) :
    Except Failure Session :=
  let own := name = "__class__" ∨ name = "__dict__"
  let changed (label : Label) : Except Failure Session :=
    if own then .error .wrongType
    else
      let session := session.change (.field label name value)
      .ok (if name = "renders" then
        { session with renders := session.renders.filter (· != label) } else session)
  match target with
  | .fragment f =>
    match f.assignable? with
    | some label => changed label
    | none => .error (.frozenField name)
  | .object label _ => changed label
  | _ => .error (if name = "__class__" then .wrongType else .missingAttribute)

def perform? (session : Session) : Step → Except Failure (Session × Reply)
  | .name name value =>
    .ok ({ session with names := rename session.names name value }, .value value)
  | .nameOptions name options =>
    .ok ({ session with options := rename session.options name options }, .done)
  | .setOption name key setting => do
    return (← session.changeMapping name fun fields => .ok (fields.insert (.text key) setting),
      .done)
  | .removeOption name key => do
    let changed ← session.changeMapping name fun fields =>
      if (fields.get? (.text key)).isSome then .ok (fields.erase (.text key))
      else .error .missingKey
    return (changed, .done)
  | .replace name source changes =>
    match session.options.lookup source with
    | none => .error .missingKey
    | some options => do
      let options ← options.changed changes
      return ({ session with options := rename session.options name options }, .done)
  | .normalize options => do return (session, .context (← options.normalize))
  | .pushBinding step value => do
    match ← session.handoutAt step with
    | .result place =>
      let session := session.growBindings place value
      return (session, .bindings (← session.resultAt place).bindings)
    | .value _ => throw .missingAttribute
  | .push name value => do
    match session.value? name with
    | none => throw .missingKey
    | some (.list label items) =>
      let change := Change.members label (items ++ [value])
      return (session.change change, .value ((Value.list label items).apply change))
    | some (.bytes (.changeable label) data) =>
      let change := Change.bytes label (data ++ [← Literal.byteOfValue value])
      return (session.change change, .value ((Value.bytes (.changeable label) data).apply change))
    | some _ => throw .missingAttribute
  | .countRenders name =>
    match session.value? name with
    | none => .error .missingKey
    | some (.fragment f) => (session.rendersOf f).map fun count => (session, .renders count)
    | some _ => .error .missingAttribute
  | .takeCalls => .ok ({ session with calls := [] }, .calls session.calls)
  | .compare left right => do return (session, .equal (← decided (left.equal? right)))
  | .compareResults left right => do
    return (session, .equal (← session.handoutsEqual left right))
  | .kind value =>
    match value with
    | .fragment f => match f.kind? with
      | some kind => .ok (session, .kind kind)
      | none => .error .missingAttribute
    | _ => .error .missingAttribute
  | .assign target field value => (session.assign target field value).map (·, .done)
  | .render _ _ _ => .ok (session, .done)

/-- Does a step, and keeps what it handed out under the number of the step. -/
def perform (session : Session) (step : Step) : Session × Except Failure Reply :=
  let handing (session : Session) (handout : Handout) : Session :=
    { session with handouts := session.handouts ++ [handout] }
  match step with
  | .render manner target options =>
    match session.render manner target options with
    | (session, .ok (reply, handout)) => (handing session handout, .ok reply)
    | (session, .error cause) => (handing session (.value .null), .error cause)
  | step =>
    match session.perform? step with
    | .ok (session, reply) => (handing session (.value .null), .ok reply)
    | .error cause => (handing session (.value .null), .error cause)

def skip (session : Session) : Session :=
  { session with handouts := session.handouts ++ [.value .null] }

end Session

end SqlFragments
