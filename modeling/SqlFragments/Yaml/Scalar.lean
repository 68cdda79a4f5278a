import SqlFragments.Failure
import SqlFragments.Text.Base64
import SqlFragments.Text.Hex
import SqlFragments.Yaml.Tag

/-!
# Values of scalars

What a scalar stands for. A plain one that has the form of a truth value, of nothing, of a
whole number, a double, a date or a moment is of that type; all others are texts, unless a tag
says otherwise. A text that a tag puts under a type need not have the form of a plain scalar
of that type, but it must be readable.

Numbers may be written with underscores, in base 2, 8, 10 or 16, and as places of 60 that are
divided by colons.
-/

namespace SqlFragments.Yaml.Scalar

open Text Number Calendar

/-! ## Forms of plain scalars -/

def isTruth (s : String) : Bool :=
  ["yes", "Yes", "YES", "true", "True", "TRUE", "on", "On", "ON",
    "no", "No", "NO", "false", "False", "FALSE", "off", "Off", "OFF"].contains s

def isNothing (s : String) : Bool :=
  ["", "~", "null", "Null", "NULL"].contains s

def isDigitOrGap (c : Char) : Bool := c.isDigit || c == '_'

/-- Whether characters form a place of 60 behind the first: one digit, or two of which the
first is below six. -/
def isSixtieth : List Char → Bool
  | [c] => c.isDigit
  | [c, d] => c.isDigit && c ≤ '5' && d.isDigit
  | _ => false

def areDigits (base : Nat) (cs : List Char) : Bool :=
  !cs.isEmpty && cs.all fun c => c == '_' || ((hexDigit? c).filter (· < base)).isSome

def isWhole : List Char → Bool
  | first :: rest => first.isDigit && rest.all isDigitOrGap
  | [] => false

def isSize (cs : List Char) : Bool :=
  match cs with
  | ['0'] => true
  | '0' :: 'b' :: rest => areDigits 2 rest
  | '0' :: 'x' :: rest => areDigits 16 rest
  | '0' :: rest => areDigits 8 rest
  | cs =>
    match cs.splitOn ':' with
    | whole :: places => isWhole whole && places.all isSixtieth
    | [] => false

def isInteger (cs : List Char) : Bool := isSize (Decimal.readSign cs).2

/-- Whether characters form an exponent, whose sign must be written, or nothing. -/
def isExponent : List Char → Bool
  | [] => true
  | e :: sign :: digits =>
    (e == 'e' || e == 'E') && (sign == '+' || sign == '-') && !digits.isEmpty &&
      digits.all Char.isDigit
  | _ => false

def magnitude? (cs : List Char) : Option Bool :=
  let word := String.ofList cs
  if [".inf", ".Inf", ".INF"].contains word then some true
  else if [".nan", ".NaN", ".NAN"].contains word then some false
  else match cs with
    | '.' :: rest =>
      let digits := rest.takeWhile isDigitOrGap
      if isWhole digits ∧ isExponent (rest.drop digits.length) then some false else none
    | cs =>
      let front := cs.takeWhile (· != '.')
      match cs.drop front.length, front.splitOn ':' with
      | _ :: rest, whole :: places =>
        let behind := rest.dropWhile isDigitOrGap
        if isWhole whole ∧ places.all isSixtieth ∧
            (if places.isEmpty then isExponent behind else behind.isEmpty) then some true
        else none
      | _, _ => none

def isDouble (cs : List Char) : Bool :=
  let unsigned := (Decimal.readSign cs).2
  match magnitude? unsigned with
  | some signed => signed || unsigned.length == cs.length
  | none => false

def number? (least most : Nat) (cs : List Char) : Option (Nat × List Char) :=
  let digits := (cs.take most).takeWhile Char.isDigit
  if least ≤ digits.length then
    some (numeral (digits.filterMap asciiDigit?), cs.drop digits.length)
  else none

def expect? (c : Char) : List Char → Option (List Char)
  | first :: rest => if first = c then some rest else none
  | [] => none

def date? (least : Nat) (cs : List Char) : Option ((Nat × Nat × Nat) × List Char) := do
  let (year, cs) ← number? 4 4 cs
  let (month, cs) ← number? least 2 (← expect? '-' cs)
  let (day, cs) ← number? least 2 (← expect? '-' cs)
  return ((year, month, day), cs)

def gap? : List Char → Option (List Char)
  | [] => none
  | c :: rest =>
    if c = 'T' ∨ c = 't' then some rest
    else if c = ' ' ∨ c = '\t' then some (rest.dropWhile fun d => d == ' ' || d == '\t')
    else none

def microseconds (cs : List Char) : Nat :=
  let digits := (cs.take 6).filterMap asciiDigit?
  numeral (digits ++ List.replicate (6 - digits.length) 0)

def offset? (cs : List Char) : Option (Option Int) :=
  match cs.dropWhile fun c => c == ' ' || c == '\t' with
  | [] => if cs.isEmpty then some none else none
  | ['Z'] => some (some 0)
  | sign :: rest =>
    if sign = '+' ∨ sign = '-' then do
      let (hours, rest) ← number? 1 2 rest
      let minutes ← match rest with
        | [] => some 0
        | _ => do
          let (minutes, rest) ← number? 2 2 (← expect? ':' rest)
          if rest.isEmpty then some minutes else none
      let size : Int := 60 * (60 * hours + minutes)
      return some (if sign = '-' then -size else size)
    else none

def time? (cs : List Char) : Option ((Nat × Nat × Nat × Nat) × Option Int) := do
  let (hour, cs) ← number? 1 2 (← gap? cs)
  let (minute, cs) ← number? 2 2 (← expect? ':' cs)
  let (second, cs) ← number? 2 2 (← expect? ':' cs)
  let (fraction, cs) := match cs with
    | '.' :: rest => (rest.takeWhile Char.isDigit, rest.dropWhile Char.isDigit)
    | _ => ([], cs)
  return ((hour, minute, second, microseconds fraction), ← offset? cs)

/-- Whether characters form a date or a moment. A date alone has two digits each for month and
day. -/
def isMoment (cs : List Char) : Bool :=
  match date? 2 cs, date? 1 cs with
  | some (_, []), _ => true
  | _, some (_, rest) => (time? rest).isSome
  | _, none => false

def tagOf (s : String) : Tag :=
  let cs := s.toList
  if isTruth s then .truth
  else if isDouble cs then .double
  else if isInteger cs then .integer
  else if s = "<<" then .merge
  else if isNothing s then .nothing
  else if isMoment cs then .moment
  else if s = "=" then .representative
  else .text

/-! ## Values of texts under a type -/

def truthValue (s : String) : Except Failure Bool :=
  let word := s.map Char.toLower
  if ["yes", "true", "on"].contains word then .ok true
  else if ["no", "false", "off"].contains word then .ok false
  else .error .missingKey

def letterOf? : Nat → Option Char
  | 2 => some 'b'
  | 8 => some 'o'
  | 16 => some 'x'
  | _ => none

def withoutLetter (base : Nat) : List Char → List Char
  | '0' :: letter :: rest =>
    if some letter.toLower = letterOf? base then rest else '0' :: letter :: rest
  | cs => cs

def digit? (base : Nat) (c : Char) : Option Nat :=
  ((digitValue? c).or (hexDigit? c)).filter (· < base)

/-- A whole number in a base. In base ten it may be too long. -/
def wholeIn (base : Nat) (cs : List Char) : Except Failure Int :=
  let (negative, cs) := Decimal.readSign (trim cs)
  match withoutLetter base cs with
  | [] => .error .badValue
  | digits =>
    match digits.mapM (digit? base) with
    | some digits =>
      if base = 10 ∧ mostDigits < digits.length then .error .badValue else
      let size := digits.foldl (fun n d => base * n + d) 0
      .ok (if negative then -(size : Int) else size)
    | none => .error .badValue

def sixtieths (places : List Int) : Int :=
  places.foldl (fun n d => 60 * n + d) 0

def integerValue (s : String) : Except Failure Int := do
  let (negative, cs) := Decimal.readSign (s.toList.filter (· != '_'))
  let size ← match cs with
    | [] => throw .indexOutOfRange
    | '0' :: 'b' :: rest => wholeIn 2 rest
    | '0' :: 'x' :: rest => wholeIn 16 rest
    | '0' :: _ => wholeIn 8 cs
    | _ =>
      if cs.contains ':' then ((cs.splitOn ':').mapM (wholeIn 10)).map sixtieths
      else wholeIn 10 cs
  return if negative then -size else size

/-- A sum of places of 60 from the last on. A place whose weight is too large for a double
cannot be added. -/
def sumPlaces (sum : Double) (weight : Nat) : List Double → Except Failure Double
  | [] => .ok sum
  | place :: rest =>
    match Double.ofNat weight with
    | .infinite _ => .error .numberTooLarge
    | factor => sumPlaces (sum.add (place.mul factor)) (60 * weight) rest

def doubleIn (cs : List Char) : Except Failure Double :=
  match Double.parse? (String.ofList cs) with
  | some x => .ok x
  | none => .error .badValue

def doubleValue (s : String) : Except Failure Double := do
  let cs := (s.toList.filter (· != '_')).map Char.toLower
  if cs.isEmpty then throw .indexOutOfRange
  let (negative, cs) := Decimal.readSign cs
  let size ←
    if cs = ".inf".toList then pure (.infinite false)
    else if cs = ".nan".toList then pure .nan
    else if cs.contains ':' then do
      let places ← (cs.splitOn ':').mapM doubleIn
      sumPlaces (.zero false) 1 places.reverse
    else doubleIn cs
  return if negative then size.negate else size

def moment (year month day hour minute second microsecond : Nat) (seconds : Option Int) :
    Except Failure Value :=
  match Date.ofNumbers? year month day, TimeOfDay.ofNumbers? hour minute second microsecond with
  | some date, some time =>
    match seconds with
    | none => .ok (.dateTime ⟨date, time, none⟩)
    | some seconds =>
      match UtcOffset.ofSeconds? seconds with
      | some offset => .ok (.dateTime ⟨date, time, some offset⟩)
      | none => .error .badValue
  | _, _ => .error .badValue

def momentValue (s : String) : Except Failure Value :=
  let cs := s.toList
  let cs := if cs.getLast? = some '\n' then cs.dropLast else cs
  match date? 1 cs with
  | none => .error .missingAttribute
  | some ((year, month, day), []) =>
    match Date.ofNumbers? year month day with
    | some date => .ok (.date date)
    | none => .error .badValue
  | some ((year, month, day), rest) =>
    match time? rest with
    | some ((hour, minute, second, microsecond), seconds) =>
      moment year month day hour minute second microsecond seconds
    | none => .error .missingAttribute

def bytesValue (s : String) : Except Failure Value :=
  if s.toList.all (·.toNat < 0x80) then
    match base64Bytes? s.toList with
    | some bytes => .ok (.bytes .fixed bytes)
    | none => .error .badDocumentValue
  else .error .badDocumentValue

/-- The value of a text under a type. Other types than those of scalars have none. -/
def value (tag : Tag) (s : String) : Except Failure Value :=
  match tag with
  | .nothing => .ok .null
  | .truth => (truthValue s).map .bool
  | .integer => (integerValue s).map .int
  | .double => (doubleValue s).map fun x => .float 0 x
  | .bytes => bytesValue s
  | .moment => momentValue s
  | .text => .ok (.text s)
  | _ => .error .badDocumentValue

end SqlFragments.Yaml.Scalar
