import SqlFragments.Render.Evaluate
import SqlFragments.Value.Dict

/-!
# Render options

Options come as nothing, as a mapping of named settings, or as a context that was constructed
without looking at its fields. Normalizing fills in what is missing: an escaper or a time zone
that counts as false is the default one, and only false itself turns placeholders off.
-/

namespace SqlFragments

/-- A setting is a value or one of the two sorts of escaping functions. -/
inductive Setting
  | value (v : Value)
  | literalEscaper (escaper : LiteralEscaper)
  | identifierEscaper (escaper : IdentifierEscaper)

namespace LiteralEscaper

def toValue : LiteralEscaper → Value
  | standard => .function 0
  | custom label _ => .function label
  | broken v => v

end LiteralEscaper

namespace IdentifierEscaper

def toValue : IdentifierEscaper → Value
  | standard => .function 1
  | custom label _ => .function label
  | broken v => v

end IdentifierEscaper

namespace Setting

def toValue : Setting → Value
  | value v => v
  | literalEscaper escaper => escaper.toValue
  | identifierEscaper escaper => escaper.toValue

/-- Whether two settings are the same thing or equal, if they can be compared. Functions are
themselves and nothing else. -/
def same? (a b : Setting) : Option Bool :=
  a.toValue.same? b.toValue

def isTruthy (setting : Setting) : Bool :=
  setting.toValue.isTruthy

def apply (change : Change) : Setting → Setting
  | value v => .value (v.apply change)
  | function => function

def label (setting : Setting) : Label :=
  match setting.toValue with
  | .function label => label
  | _ => 0

/-- A setting as the literal escaper of a context. A function for names takes no time zone. -/
def toLiteralEscaper : Setting → LiteralEscaper
  | literalEscaper e => e
  | identifierEscaper e => .custom (identifierEscaper e).label fun _ _ _ => .fail .wrongType
  | value v => .broken v

/-- A setting as the identifier escaper of a context. Of the functions for literals only that
of the library does without a time zone. -/
def toIdentifierEscaper : Setting → IdentifierEscaper
  | identifierEscaper e => e
  | literalEscaper .standard => .custom 0 fun env name => literal env name (.text "Z")
  | literalEscaper e => .custom (literalEscaper e).label fun _ _ => .fail .wrongType
  | value v => .broken v

end Setting

/-- A context as constructed: every field is whatever it was given. -/
structure Settings where
  escape : Setting := .literalEscaper .standard
  escapeId : Setting := .identifierEscaper .standard
  withParameters : Setting := .value (.bool true)
  timezone : Setting := .value (.text "Z")
  preparing : Setting := .value (.bool false)
  method : Setting := .value .null

namespace Settings

def set (settings : Settings) (name : String) (setting : Setting) : Except Failure Settings :=
  match name with
  | "escape" => .ok { settings with escape := setting }
  | "escape_id" => .ok { settings with escapeId := setting }
  | "with_parameters" => .ok { settings with withParameters := setting }
  | "timezone" => .ok { settings with timezone := setting }
  | "preparing" => .ok { settings with preparing := setting }
  | "method" => .ok { settings with method := setting }
  | _ => .error .wrongType

def setAll (settings : Settings) (changes : List (String × Setting)) : Except Failure Settings :=
  changes.foldlM (fun s change => s.set change.1 change.2) settings

def apply (change : Change) (settings : Settings) : Settings where
  escape := settings.escape.apply change
  escapeId := settings.escapeId.apply change
  withParameters := settings.withParameters.apply change
  timezone := settings.timezone.apply change
  preparing := settings.preparing.apply change
  method := settings.method.apply change

def toEntries (settings : Settings) : Entries Setting :=
  [(.text "escape", settings.escape), (.text "escape_id", settings.escapeId),
    (.text "with_parameters", settings.withParameters), (.text "timezone", settings.timezone),
    (.text "preparing", settings.preparing), (.text "method", settings.method)]

end Settings

inductive Options
  | absent
  | mapping (label : Label) (fields : Entries Setting)
  | constructed (settings : Settings)
  | other (given : Value)

namespace Context

private def truthy? (fields : Entries Setting) (name : String) : Option Setting :=
  (fields.get? (.text name)).filter Setting.isTruthy

def ofFields (fields : Entries Setting) : Context where
  escape := ((truthy? fields "escape").map Setting.toLiteralEscaper).getD .standard
  escapeId := ((truthy? fields "escape_id").map Setting.toIdentifierEscaper).getD .standard
  withParameters := match fields.get? (.text "with_parameters") with
    | some (.value (.bool false)) => false
    | _ => true
  timezone := ((truthy? fields "timezone").map Setting.toValue).getD (.text "Z")
  preparing := (truthy? fields "preparing").isSome
  method := ((fields.get? (.text "method")).map Setting.toValue).getD .null

def literalSetting : LiteralEscaper → Setting
  | .broken v => .value v
  | e => .literalEscaper e

def identifierSetting : IdentifierEscaper → Setting
  | .broken v => .value v
  | e => .identifierEscaper e

def toSettings (context : Context) : Settings where
  escape := literalSetting context.escape
  escapeId := identifierSetting context.escapeId
  withParameters := .value (.bool context.withParameters)
  timezone := .value context.timezone
  preparing := .value (.bool context.preparing)
  method := .value context.method

end Context

namespace Options

/-- The named settings that options are compared by. -/
def fields : Options → Except Failure (Entries Setting)
  | absent => .ok []
  | mapping _ fields => .ok fields
  | constructed settings => .ok settings.toEntries
  | other given => .error (.optionsExpected given.typeName)

def normalize (options : Options) : Except Failure Context :=
  options.fields.map Context.ofFields

end Options

def withParametersKey : Value := .text "with_parameters"

def inlinedFields (fields : Entries Setting) : Entries Setting :=
  fields.insert withParametersKey (.value (.bool false))

def settingsAgree? (right : Entries Setting) : Entries Setting → Option Bool
  | [] => some true
  | (key, setting) :: rest =>
    match right.get? key with
    | some other => Value.andAlso (setting.same? other) fun _ => settingsAgree? right rest
    | none => some false

/-- Whether named settings have the same names, and at each the same or an equal setting, if
they can be compared. -/
def fieldsAgree? (left right : Entries Setting) : Option Bool :=
  if left.length = right.length ∧ left.all (fun field => (right.get? field.1).isSome) then
    settingsAgree? right left
  else some false

namespace Options

/-- Options that are given as a value. A dictionary stays the same thing. -/
def ofValue : Value → Options
  | .null => absent
  | .dict label entries => mapping label (entries.map fun (key, v) => (key, .value v))
  | v => other v

end Options

end SqlFragments
