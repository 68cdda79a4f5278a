import SqlFragments.Calendar.Date
import SqlFragments.Number.Double

/-!
# Values and fragments

The values that a statement can bind or write, and the fragments that statements are built
from. The two are one tree: a fragment holds values, and a list among the values may hold
fragments.

Some things are told apart although they look alike: what can change, objects, functions,
templates with their memory, numbers that are not a number. They carry a label, and two
occurrences with one label are the same thing.
-/

namespace SqlFragments

open Number Calendar

/-- The name of one thing among others that look alike. -/
abbrev Label := Nat

/-- The three forms of binary data; they hold the same bytes. Only the second can change. -/
inductive BytesForm
  | fixed
  | changeable (label : Label)
  | view
deriving DecidableEq, Repr

/-- A template is a statement or a function call; they render alike and differ in kind. -/
inductive TemplateForm
  | statement
  | call
deriving DecidableEq, Repr

/-- The fragments of the user that always render the same: one without text but with a value to
bind, and one with a text that counts its renders. -/
inductive LeafForm
  | silent
  | counting
deriving DecidableEq, Repr

inductive Kind
  | raw
  | ident
  | param
  | parameterize
  | columnize
  | lines
  | clause
  | fn
  | sql
deriving DecidableEq, Repr

def Kind.name : Kind → String
  | raw => "raw"
  | ident => "ident"
  | param => "param"
  | parameterize => "parameterize"
  | columnize => "columnize"
  | lines => "lines"
  | clause => "clause"
  | fn => "fn"
  | sql => "sql"

def Kind.ofName? (s : String) : Option Kind :=
  [raw, ident, param, parameterize, columnize, lines, clause, fn, sql].find? (·.name == s)

mutual

/-- A value. Lists can change and tuples cannot; a dictionary keeps the order of its keys. An
object shows the text it has; without one it cannot be shown. -/
inductive Value
  | null
  | bool (b : Bool)
  | int (n : Int)
  | float (label : Label) (x : Double)
  | decimal (label : Label) (x : Decimal)
  | text (s : String)
  | dateTime (moment : DateTime)
  | date (day : Date)
  | bytes (form : BytesForm) (data : List UInt8)
  | list (label : Label) (items : List Value)
  | tuple (items : List Value)
  | dict (label : Label) (entries : List (Value × Value))
  | object (label : Label) (shown : Option String)
  | function (label : Label)
  | fragment (f : Fragment)

/-- A piece of a statement. The last five constructors are fragments that a user of the
library defines: one that always renders the same, one that shows the context it gets, one
that renders to another thing, one that renders to itself, and one that cannot be rendered.
Other than the fragments of the library they can be assigned fields, which then hide what the
fragment has of that name. -/
inductive Fragment
  | raw (value : Value)
  | identifier (name : String)
  | parameter (value : Value)
  | parameterList (values : List Value) (separator : Value)
  | columnList (columns : List Value) (separator : Value)
  | lines (members : List Value) (separator : Value)
  | clause (strings : List Value) (value : Value)
  | template (label : Label) (form : TemplateForm) (strings values : List Value)
  | leaf (label : Label) (form : LeafForm) (text : Value) (bindings : List Value)
      (assigned : List (String × Value))
  | probe (label : Label) (assigned : List (String × Value))
  | deferred (label : Label) (target : Value) (assigned : List (String × Value))
  | endless (label : Label) (assigned : List (String × Value))
  | unrenderable (label : Label) (kind : Option Kind) (assigned : List (String × Value))

end

instance : Inhabited Value := ⟨.null⟩

namespace Fragment

def assigned : Fragment → List (String × Value)
  | leaf _ _ _ _ assigned => assigned
  | probe _ assigned => assigned
  | deferred _ _ assigned => assigned
  | endless _ assigned => assigned
  | unrenderable _ _ assigned => assigned
  | _ => []

def hides (f : Fragment) (field : String) : Bool :=
  (f.assigned.lookup field).isSome

/-- Whether a fragment says how it is rendered. Whatever is assigned as its render says
nothing. -/
def isRenderable : Fragment → Bool
  | unrenderable _ _ _ => false
  | f => !f.hides "render"

def assignable? : Fragment → Option Label
  | leaf label _ _ _ _ => some label
  | probe label _ => some label
  | deferred label _ _ => some label
  | endless label _ => some label
  | unrenderable label _ _ => some label
  | _ => none

def ownKind? : Fragment → Option Kind
  | raw _ => some .raw
  | identifier _ => some .ident
  | parameter _ => some .param
  | parameterList _ _ => some .parameterize
  | columnList _ _ => some .columnize
  | lines _ _ => some .lines
  | clause _ _ => some .clause
  | template _ .statement _ _ => some .sql
  | template _ .call _ _ => some .fn
  | leaf _ _ _ _ _ => some .raw
  | probe _ _ => some .raw
  | deferred _ _ _ => some .sql
  | endless _ _ => some .sql
  | unrenderable _ kind _ => kind

/-- The kind of a fragment. Whatever is assigned as kind is none. -/
def kind? (f : Fragment) : Option Kind :=
  if f.hides "kind" then none else f.ownKind?

def typeName : Fragment → String
  | raw _ => "Raw"
  | identifier _ => "Identifier"
  | parameter _ => "Parameter"
  | parameterList _ _ => "ParameterList"
  | columnList _ _ => "ColumnList"
  | lines _ _ => "Lines"
  | clause _ _ => "Clause"
  | template _ _ _ _ => "Template"
  | leaf _ .silent _ _ _ => "Silent"
  | leaf _ .counting _ _ _ => "Counting"
  | probe _ _ => "Probe"
  | deferred _ _ _ => "Indirect"
  | endless _ _ => "Loop"
  | unrenderable _ _ _ => "NoRender"

def kindName (f : Fragment) : String :=
  match f.kind? with
  | some kind => kind.name
  | none => f.typeName

end Fragment

namespace Value

def typeName : Value → String
  | null => "NoneType"
  | bool _ => "bool"
  | int _ => "int"
  | float _ _ => "float"
  | decimal _ _ => "Decimal"
  | text _ => "str"
  | dateTime _ => "datetime"
  | date _ => "date"
  | bytes .fixed _ => "bytes"
  | bytes (.changeable _) _ => "bytearray"
  | bytes .view _ => "memoryview"
  | list _ _ => "list"
  | tuple _ => "tuple"
  | dict _ _ => "dict"
  | object _ _ => "Opaque"
  | function _ => "function"
  | fragment f => f.typeName

def isTruthy : Value → Bool
  | null => false
  | bool b => b
  | int n => n != 0
  | float _ x => !x.isZero
  | decimal _ x => !x.isZero
  | text s => !s.isEmpty
  | bytes _ data => !data.isEmpty
  | list _ items => !items.isEmpty
  | tuple items => !items.isEmpty
  | dict _ entries => !entries.isEmpty
  | dateTime _ | date _ | object _ _ | function _ | fragment _ => true

def items? : Value → Option (List Value)
  | list _ items => some items
  | tuple items => some items
  | _ => none

def text? : Value → Option String
  | text s => some s
  | _ => none

def characters (s : String) : List Value :=
  s.toList.map fun c => text (String.singleton c)

/-- The values that come one after the other when a value is gone through: members, characters
of a text, bytes, keys. -/
def each? : Value → Option (List Value)
  | text s => some (characters s)
  | bytes _ data => some (data.map fun b => int b.toNat)
  | list _ items => some items
  | tuple items => some items
  | dict _ entries => some (entries.map (·.1))
  | _ => none

end Value

end SqlFragments
