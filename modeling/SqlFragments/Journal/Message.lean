import SqlFragments.Number.Places
import SqlFragments.Outcome
import SqlFragments.Value.Dict
import SqlFragments.Value.Sum

/-!
# Messages with arguments

A message may have places for arguments: a percent sign, flags, a width, a precision and a
letter that says how the argument is written. Two percent signs stand for one. Width and
precision may be arguments themselves. Arguments fill the places in order, and none may be
left over, or a dictionary fills them by name.
-/

namespace SqlFragments.Journal

open Text Number

/-! ## Arguments -/

/-- The arguments of a message: a row that is used up, or a dictionary of names with the value
that is next and whether that was used. -/
inductive Arguments
  | row (values : List Value)
  | named (entries : Entries Value) (next : Value) (used : Bool)

namespace Arguments

/-- The arguments for a message. A single dictionary that is not empty gives names, and is
itself what a place without a name takes. -/
def ofValues : List Value → Arguments
  | [.dict label (entry :: rest)] =>
    named (entry :: rest) (.dict label (entry :: rest)) false
  | values => row values

def take : Arguments → Except Failure (Value × Arguments)
  | row (value :: rest) => .ok (value, row rest)
  | named entries next false => .ok (next, named entries next true)
  | row [] | named _ _ true => .error .wrongType

def takeInt (arguments : Arguments) : Except Failure (Int × Arguments) := do
  let (value, arguments) ← arguments.take
  match value with
  | .int n => return (n, arguments)
  | .bool b => return (if b then 1 else 0, arguments)
  | _ => throw .wrongType

def select (entries : Entries Value) (name : String) : Except Failure Arguments :=
  match entries.get? (.text name) with
  | some value => .ok (named entries value false)
  | none => .error .missingKey

def isLeftOver : Arguments → Bool
  | row values => !values.isEmpty
  | named _ _ _ => false

end Arguments

/-! ## Places -/

structure Place where
  flags : List Char
  width : Nat
  precision : Option Nat
  letter : Char

def widestPlace : Nat := Nat.pow 2 63 - 1

def greatestPrecision : Nat := Nat.pow 2 31 - 1

def greatestDigits : Nat := greatestPrecision - 3

def longestFill : Nat := Nat.pow 2 28

/-- A precision that shows every digit of a double: there is none behind the 1074th place. -/
def allDigits : Nat := 1100

def takeName : Nat → List Char → Option (List Char × List Char)
  | _, [] => none
  | depth, c :: rest =>
    if c = ')' then
      match depth with
      | 0 => some ([], rest)
      | depth + 1 => (takeName depth rest).map fun (name, rest) => (c :: name, rest)
    else
      (takeName (if c = '(' then depth + 1 else depth) rest).map fun (name, rest) =>
        (c :: name, rest)

def readName (cs : List Char) (arguments : Arguments) :
    Except Failure (List Char × Arguments) :=
  match cs with
  | '(' :: rest =>
    match arguments with
    | .row _ => .error .wrongType
    | .named entries _ _ =>
      match takeName 0 rest with
      | some (name, rest) => (Arguments.select entries (String.ofList name)).map (rest, ·)
      | none => .error .badValue
  | _ => .ok (cs, arguments)

def readNumber (most : Nat) (cs : List Char) : Except Failure (Nat × List Char) :=
  let digits := cs.takeWhile Char.isDigit
  let n := numeral (digits.filterMap asciiDigit?)
  if n ≤ most then .ok (n, cs.drop digits.length) else .error .badValue

def fits (digits : Nat) (n : Int) : Bool :=
  -(Nat.pow 2 digits : Int) ≤ n ∧ n < (Nat.pow 2 digits : Int)

def readWidth (flags cs : List Char) (arguments : Arguments) :
    Except Failure (Nat × List Char × List Char × Arguments) :=
  match cs with
  | '*' :: rest => do
    let (n, arguments) ← arguments.takeInt
    unless fits 63 n do throw .numberTooLarge
    return (n.natAbs, if n < 0 then '-' :: flags else flags, rest, arguments)
  | _ => do
    let (n, rest) ← readNumber widestPlace cs
    return (n, flags, rest, arguments)

def readPrecision (cs : List Char) (arguments : Arguments) :
    Except Failure (Option Nat × List Char × Arguments) :=
  match cs with
  | '.' :: '*' :: rest => do
    let (n, arguments) ← arguments.takeInt
    unless fits 31 n do throw .numberTooLarge
    return (some n.toNat, rest, arguments)
  | '.' :: rest => do
    let (n, rest) ← readNumber greatestPrecision rest
    return (some n, rest, arguments)
  | _ => .ok (none, cs, arguments)

/-- Reads a place behind its percent sign. A letter for the size of numbers means nothing. -/
def readPlace (cs : List Char) (arguments : Arguments) :
    Except Failure (Place × List Char × Arguments) := do
  let (cs, arguments) ← readName cs arguments
  let flags := cs.takeWhile fun c => "-+ #0".toList.contains c
  let (width, flags, cs, arguments) ← readWidth flags (cs.drop flags.length) arguments
  let (precision, cs, arguments) ← readPrecision cs arguments
  let cs := match cs with
    | c :: rest => if c = 'h' ∨ c = 'l' ∨ c = 'L' then rest else cs
    | [] => []
  match cs with
  | letter :: rest => return ({ flags, width, precision, letter }, rest, arguments)
  | [] => throw .badValue

namespace Place

def has (place : Place) (flag : Char) : Bool := place.flags.contains flag

def splitSign (place : Place) : List Char → List Char × List Char
  | '-' :: rest => (['-'], rest)
  | cs => (if place.has '+' then ['+'] else if place.has ' ' then [' '] else [], cs)

def marksBase (place : Place) : Bool :=
  place.has '#' && "xXo".toList.contains place.letter

def fill (place : Place) (cs : List Char) : List Char :=
  let blanks := List.replicate (place.width - cs.length) ' '
  if place.has '-' then cs ++ blanks else blanks ++ cs

/-- Fills a number up to the width of a place, where a flag asks for it with zeros behind its
sign and the mark of its base. -/
def fillNumber (place : Place) (cs : List Char) : List Char :=
  let (sign, cs) := place.splitSign cs
  let front := sign ++ (if place.marksBase then cs.take 2 else [])
  let digits := if place.marksBase then cs.drop 2 else cs
  if place.has '0' ∧ ¬ place.has '-' then
    front ++ List.replicate (place.width - front.length - digits.length) '0' ++ digits
  else place.fill (front ++ digits)

def writeText (place : Place) (s : String) : List Char :=
  place.fill (match place.precision with
    | some n => s.toList.take n
    | none => s.toList)

def digitsIn (letter : Char) (n : Nat) : List Char × List Char :=
  if letter = 'o' then (['0', 'o'], Nat.toDigits 8 n)
  else if letter = 'x' then (['0', 'x'], Nat.toDigits 16 n)
  else if letter = 'X' then (['0', 'X'], (Nat.toDigits 16 n).map Char.toUpper)
  else ([], decimalDigits n)

def writeInt (place : Place) (n : Int) : List Char :=
  let (mark, digits) := digitsIn place.letter n.natAbs
  let zeros := List.replicate (place.precision.getD 0 - digits.length) '0'
  place.fillNumber
    (Decimal.sign (n < 0) ++ (if place.has '#' then mark else []) ++ zeros ++ digits)

def doubleForm? : Char → Option Notation
  | 'e' | 'E' => some .exponential
  | 'f' | 'F' => some .positional
  | 'g' | 'G' => some .general
  | _ => none

/-- The precision that a double is written with: six places where a place has none, and no
more than there are digits where zeros at the end are left out. -/
def placesOf (place : Place) (form : Notation) : Nat :=
  let places := place.precision.getD 6
  if form = .general ∧ ¬ place.has '#' then min places allDigits else places

def writeDouble (place : Place) (form : Notation) (x : Double) : List Char :=
  let cs := form.write (place.placesOf form) (place.has '#') x
  place.fillNumber (if place.letter.isUpper then cs.map Char.toUpper else cs)

end Place

/-! ## Arguments at places -/

def wholeOf : Value → Except Failure Int
  | .int n => .ok n
  | .bool b => .ok (if b then 1 else 0)
  | .float _ x =>
    match x with
    | .nan => .error .badValue
    | .infinite _ => .error .numberTooLarge
    | x => .ok (x.truncate?.getD 0)
  | .decimal _ x =>
    match x with
    | .nan _ _ _ => .error .badValue
    | .infinite _ => .error .numberTooLarge
    | x => .ok (x.truncate?.getD 0)
  | _ => .error .wrongType

def integerOf : Value → Except Failure Int
  | .int n => .ok n
  | .bool b => .ok (if b then 1 else 0)
  | _ => .error .wrongType

def doubleOf : Value → Except Failure Double
  | .int n => Summand.wholeDouble n
  | .bool b => Summand.wholeDouble (if b then 1 else 0)
  | .float _ x => .ok x
  | .decimal _ (.nan _ signaling _) => if signaling then .error .badValue else .ok .nan
  | .decimal _ x => .ok (Double.ofDecimal x)
  | _ => .error .wrongType

def characterOf : Value → Except Failure Char
  | .text s =>
    match s.toList with
    | [c] => .ok c
    | _ => .error .wrongType
  | v => do
    let n ← integerOf v
    if 0 ≤ n ∧ n < 0x110000 then return Char.ofNat n.toNat else throw .numberTooLarge

def asciiOnly (s : String) : String :=
  String.ofList (s.toList.flatMap fun c => if c.toNat < 0x80 then [c] else hiddenCode c.toNat)

def inspected (argument : Value) : Outcome String :=
  .ofExcept (argument.shown argument.inspect)

def withRoom (count : Nat) : Except Failure Unit :=
  if longestFill < count then .error .tooMuchMemory else .ok ()

def Place.enterText (place : Place) (s : String) : Except Failure (List Char) := do
  withRoom place.width
  return place.writeText s

/-- Refuses a whole number that is too long, which only one in base ten can be. -/
def Place.checkDigits (place : Place) (n : Int) : Except Failure Unit :=
  if "oxX".toList.contains place.letter then .ok () else (Whole.ofInt n).map fun _ => ()

def Place.enterInt (place : Place) (n : Int) : Except Failure (List Char) := do
  let precision := place.precision.getD 0
  if greatestDigits < precision then throw .numberTooLarge
  place.checkDigits n
  withRoom (max place.width precision)
  return place.writeInt n

def Place.enterDouble (place : Place) (form : Notation) (x : Double) :
    Except Failure (List Char) := do
  withRoom (if x.ratio?.isSome then max place.width (place.placesOf form) else place.width)
  return place.writeDouble form x

/-- Writes an argument at a place. The plain text of the argument is given, since a fragment
must be rendered for it. -/
def Place.write (place : Place) (argument : Value) (plain : Unit → Outcome String) :
    Outcome (List Char) :=
  match place.letter with
  | 's' => do
    let s ← plain ()
    Outcome.ofExcept (place.enterText s)
  | 'r' => do
    let s ← inspected argument
    Outcome.ofExcept (place.enterText s)
  | 'a' => do
    let s ← inspected argument
    Outcome.ofExcept (place.enterText (asciiOnly s))
  | 'd' | 'i' | 'u' => Outcome.ofExcept (wholeOf argument >>= place.enterInt)
  | 'o' | 'x' | 'X' => Outcome.ofExcept (integerOf argument >>= place.enterInt)
  | 'c' => Outcome.ofExcept do
    let c ← characterOf argument
    withRoom place.width
    return place.fill [c]
  | letter =>
    match doubleForm? letter with
    | some form => Outcome.ofExcept (doubleOf argument >>= place.enterDouble form)
    | none => .fail .badValue

def fillPlaces (plain : Value → Outcome String) :
    Nat → List Char → Arguments → Outcome (List Char)
  | 0, _, _ => pure []
  | _, [], arguments => if arguments.isLeftOver then .fail .wrongType else pure []
  | fuel + 1, '%' :: '%' :: rest, arguments => do
    let more ← fillPlaces plain fuel rest arguments
    pure ('%' :: more)
  | fuel + 1, '%' :: rest, arguments => do
    let (place, rest, arguments) ← Outcome.ofExcept (readPlace rest arguments)
    let (value, arguments) ← Outcome.ofExcept arguments.take
    let written ← place.write value fun _ => plain value
    let more ← fillPlaces plain fuel rest arguments
    pure (written ++ more)
  | fuel + 1, c :: rest, arguments => do
    let more ← fillPlaces plain fuel rest arguments
    pure (c :: more)

def formatted (plain : Value → Outcome String) (message : String) (arguments : List Value) :
    Outcome String :=
  match arguments with
  | [] => pure message
  | arguments => do
    let cs ← fillPlaces plain (message.length + 1) message.toList (Arguments.ofValues arguments)
    pure (String.ofList cs)

end SqlFragments.Journal
