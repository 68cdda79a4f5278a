import SqlFragments.Number.Whole
import SqlFragments.Text.Quoted
import SqlFragments.Value.Basic

/-!
# Values in messages

The text of a value in a message tells its type apart: texts and bytes stand between
quotation marks, containers show their members, and fragments show form and fields. The plain
text of a value is used where it becomes part of a statement or a journal line. Neither is used
where something is in the way of it: an object without a text, or a whole number that is too long.
-/

namespace SqlFragments

open Text Number Calendar

namespace Calendar

def listed (numbers : List Nat) : String :=
  String.intercalate ", " (numbers.map toString)

def Date.inspect (d : Date) : String :=
  "datetime.date(" ++ listed [d.year, d.month, d.day] ++ ")"

/-- An offset in a message; behind universal time it is a day back and forward from there. -/
def UtcOffset.inspect (offset : UtcOffset) : String :=
  if offset.microseconds = 0 then "datetime.timezone.utc"
  else
    let days := offset.microseconds / 86400000000
    let seconds := offset.microseconds / 1000000 % 86400
    let microseconds := offset.microseconds % 1000000
    let span := [("days", days), ("seconds", seconds), ("microseconds", microseconds)].filterMap
      fun (unit, count) => if count = 0 then none else some (unit ++ "=" ++ toString count)
    "datetime.timezone(datetime.timedelta(" ++ String.intercalate ", " span ++ "))"

def DateTime.inspect (m : DateTime) : String :=
  let clock := [m.date.year, m.date.month, m.date.day, m.time.hour, m.time.minute]
  let clock :=
    if m.time.microsecond ≠ 0 then clock ++ [m.time.second, m.time.microsecond]
    else if m.time.second ≠ 0 then clock ++ [m.time.second]
    else clock
  "datetime.datetime(" ++ listed clock ++
    (m.offset.elim "" fun offset => ", tzinfo=" ++ offset.inspect) ++ ")"

def Date.text (d : Date) : String :=
  String.ofList (padded 4 d.year ++ '-' :: padded 2 d.month ++ '-' :: padded 2 d.day)

def UtcOffset.text (offset : UtcOffset) : String :=
  let size := offset.microseconds.natAbs
  let clock := size / 1000000
  let parts := if size % 1000000 = 0 then [] else '.' :: padded 6 (size % 1000000)
  let seconds := if size % 60000000 = 0 then [] else ':' :: padded 2 (clock % 60) ++ parts
  String.ofList ((if offset.microseconds < 0 then '-' else '+') ::
    padded 2 (clock / 3600) ++ ':' :: padded 2 (clock / 60 % 60) ++ seconds)

def DateTime.text (m : DateTime) : String :=
  let clock := padded 2 m.time.hour ++ ':' :: padded 2 m.time.minute ++ ':' ::
    padded 2 m.time.second
  let fraction := if m.time.microsecond = 0 then [] else '.' :: padded 6 m.time.microsecond
  m.date.text ++ " " ++ String.ofList (clock ++ fraction) ++ (m.offset.elim "" (·.text))

end Calendar

def bracketed (opening closing : String) (members : List String) : String :=
  opening ++ String.intercalate ", " members ++ closing

def tupleText : List String → String
  | [single] => "(" ++ single ++ ",)"
  | members => bracketed "(" ")" members

def TemplateForm.inspect : TemplateForm → String
  | .statement => "<FragmentType.SQL: 'sql'>"
  | .call => "<FragmentType.FN: 'fn'>"

def formText (form : String) (fields : List (String × String)) : String :=
  form ++ bracketed "(" ")" (fields.map fun (name, shown) => name ++ "=" ++ shown)

mutual

def Value.inspect : Value → String
  | .null => "None"
  | .bool b => if b then "True" else "False"
  | .int n => toString n
  | .float _ x => x.text
  | .decimal _ x => "Decimal('" ++ x.text ++ "')"
  | .text s => quoted s
  | .dateTime m => m.inspect
  | .date d => d.inspect
  | .bytes .fixed data => quotedBytes data
  | .bytes (.changeable _) data => quotedByteArray data
  | .bytes .view _ => "<memory>"
  | .list _ items => bracketed "[" "]" (Value.inspectEach items)
  | .tuple items => tupleText (Value.inspectEach items)
  | .dict _ entries => bracketed "\x7b" "\x7d" (Value.inspectEntries entries)
  | .object _ shown => shown.getD "<Opaque>"
  | .function _ => "<function>"
  | .fragment f => Fragment.inspect f
termination_by structural v => v

def Value.inspectEach : List Value → List String
  | [] => []
  | v :: rest => Value.inspect v :: Value.inspectEach rest
termination_by structural vs => vs

def Value.inspectEntries : List (Value × Value) → List String
  | [] => []
  | (k, v) :: rest =>
    (Value.inspect k ++ ": " ++ Value.inspect v) :: Value.inspectEntries rest
termination_by structural entries => entries

def Fragment.inspect : Fragment → String
  | .raw value => formText "Raw" [("value", Value.inspect value)]
  | .identifier name => formText "Identifier" [("name", quoted name)]
  | .parameter value => formText "Parameter" [("value", Value.inspect value)]
  | .parameterList values separator =>
    formText "ParameterList" [("values", tupleText (Value.inspectEach values)),
      ("separator", Value.inspect separator)]
  | .columnList columns separator =>
    formText "ColumnList" [("columns", tupleText (Value.inspectEach columns)),
      ("separator", Value.inspect separator)]
  | .lines members separator =>
    formText "Lines" [("members", tupleText (Value.inspectEach members)),
      ("separator", Value.inspect separator)]
  | .clause strings value =>
    formText "Clause" [("strings", tupleText (Value.inspectEach strings)),
      ("value", Value.inspect value)]
  | .template _ form strings values =>
    formText "Template" [("strings", tupleText (Value.inspectEach strings)),
      ("values", tupleText (Value.inspectEach values)), ("kind", form.inspect)]
  | .leaf _ .silent _ _ _ => "<Silent>"
  | .leaf _ .counting _ _ _ => "<Counting>"
  | .probe _ _ => "<Probe>"
  | .deferred _ _ _ => "<Indirect>"
  | .endless _ _ => "<Loop>"
  | .unrenderable _ _ _ => "<NoRender>"
termination_by structural f => f

end

inductive Obstacle
  | textless
  | overlong
deriving DecidableEq, Repr

mutual

/-- The first thing that is in the way of showing a value, in the order in which it is shown. -/
def Value.obstacle? : Value → Option Obstacle
  | .int n => if isOverlong n.natAbs then some .overlong else none
  | .list _ items => Value.obstacleAmong? items
  | .tuple items => Value.obstacleAmong? items
  | .dict _ entries => Value.obstacleInEntries? entries
  | .object _ shown => if shown.isSome then none else some .textless
  | .fragment f => Fragment.obstacle? f
  | _ => none
termination_by structural v => v

def Value.obstacleAmong? : List Value → Option Obstacle
  | [] => none
  | v :: rest => (Value.obstacle? v).or (Value.obstacleAmong? rest)
termination_by structural vs => vs

def Value.obstacleInEntries? : List (Value × Value) → Option Obstacle
  | [] => none
  | (k, v) :: rest =>
    ((Value.obstacle? k).or (Value.obstacle? v)).or (Value.obstacleInEntries? rest)
termination_by structural entries => entries

def Fragment.obstacle? : Fragment → Option Obstacle
  | .raw value => Value.obstacle? value
  | .parameter value => Value.obstacle? value
  | .parameterList values separator =>
    (Value.obstacleAmong? values).or (Value.obstacle? separator)
  | .columnList columns separator =>
    (Value.obstacleAmong? columns).or (Value.obstacle? separator)
  | .lines members separator => (Value.obstacleAmong? members).or (Value.obstacle? separator)
  | .clause strings value => (Value.obstacleAmong? strings).or (Value.obstacle? value)
  | .template _ _ strings values =>
    (Value.obstacleAmong? strings).or (Value.obstacleAmong? values)
  | _ => none
termination_by structural f => f

end

/-- The plain text of a value that is no fragment: texts stand as they are, numbers and dates
without their type, and all else as in a message. -/
def Value.plainText : Value → String
  | .text s => s
  | .decimal _ x => x.text
  | .dateTime m => m.text
  | .date d => d.text
  | v => v.inspect

end SqlFragments
