import SqlFragments.Failure

/-!
# Building fragments

Fragments are built by functions that check the shape of what they are given. Lists are taken
over as tuples, so what happens to a list afterwards does not reach the fragment.
-/

namespace SqlFragments.Fragment

def commaSeparator : Value := .text ", "

def lineSeparator : Value := .text "\n"

/-- The literal parts of a template: a list or tuple with one part more than values. -/
def literalParts (kind : Kind) (strings : Value) (count : Nat) : Except Failure (List Value) :=
  match strings.items? with
  | none => .error (.showing (.literalsExpected kind) strings)
  | some parts =>
    if parts.length = count + 1 then .ok parts
    else .error (.literalCount kind parts.length count)

def statement (label : Label) (strings : Value) (values : List Value) :
    Except Failure Fragment := do
  let parts ← literalParts .sql strings values.length
  return template label .statement parts values

def conditional (strings : Value) (values : List Value) : Except Failure Fragment :=
  match values with
  | [value] => do
    let parts ← literalParts .clause strings 1
    return clause parts value
  | _ => .error (.showing (.singleValueExpected values.length) strings)

def verbatim (value : Value) : Fragment :=
  raw value

/-- A name; a star alone stands for all columns and is taken over as it is. -/
def named : Value → Except Failure Fragment
  | .text name => .ok (if name = "*" then raw (.text name) else identifier name)
  | other => .error (.showing .nameExpected other)

def functionCall (label : Label) (strings : Value) (names : List Value) :
    Except Failure Fragment := do
  let parts ← literalParts .fn strings names.length
  let values ← names.mapM named
  return template label .call parts (values.map .fragment)

def members (kind : Kind) (given : Value) : Except Failure (List Value) :=
  match given.items? with
  | some items => .ok items
  | none => .error (.showing (.listExpected kind) given)

def parameters (values : Value) (separator : Option Value) : Except Failure Fragment := do
  return parameterList (← members .parameterize values) (separator.getD commaSeparator)

def columns (names : Value) (separator : Option Value) : Except Failure Fragment := do
  return columnList (← members .columnize names) (separator.getD commaSeparator)

def joined (fragments : Value) (separator : Option Value) : Except Failure Fragment := do
  return lines (← members .lines fragments) (separator.getD lineSeparator)

def deferredBy (labels : List Label) (target : Value) : Value :=
  labels.foldl (fun inner label => .fragment (deferred label inner [])) target

end SqlFragments.Fragment
