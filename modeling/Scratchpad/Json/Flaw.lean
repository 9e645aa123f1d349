/-!
# Flaws of data

Why a text does not hold the data that it should: the text ends too soon, it is not well-formed, or it is
well-formed and holds something else.

## Main definitions

* `Flaw`, `Flaw.message`, `Flaw.category`: what is wrong.
* `Misfit`: what is wrong, and where.
-/

namespace Scratchpad.Json

/-- What is wrong with a text. -/
inductive Flaw where
  | endInList
  | endInObject
  | endInString
  | endInValue
  | colonExpected
  | listEndExpected
  | objectEndExpected
  | wordExpected
  | valueExpected
  | badEscape
  | badNumber
  | numberTooLarge
  | controlInString
  | nameExpected
  | loneSurrogate
  | surrogateExpected
  | trailingComma
  | trailingText
  | tooDeep
  /-- A value of another type was expected. -/
  | wrongType (found expected : String)
  /-- Another value of the type was expected. -/
  | wrongValue (found expected : String)
  /-- Another number of items was expected. -/
  | wrongLength (found : Nat) (expected : String)
  /-- One of other names was expected. -/
  | unknownVariant (found : String) (expected : List String)
  | missingField (name : String)
  | duplicateField (name : String)
deriving DecidableEq, Inhabited, Repr

/-- The kinds of flaws. -/
inductive Category where
  /-- The text ends too soon. -/
  | endOfText
  /-- The text is not well-formed. -/
  | wellFormedness
  /-- The text holds something else. -/
  | data
deriving DecidableEq, Inhabited, Repr

namespace Flaw

/-- The kind of a flaw. -/
def category : Flaw → Category
  | endInList | endInObject | endInString | endInValue => .endOfText
  | wrongType .. | wrongValue .. | wrongLength .. | unknownVariant .. | missingField .. |
    duplicateField .. => .data
  | _ => .wellFormedness

/-- A text between grave accents. -/
def inAccents (s : String) : String := "\x60" ++ s ++ "\x60"

/-- Names of which one is expected. -/
def alternatives : List String → String
  | [] => "there are no variants"
  | [a] => "expected " ++ inAccents a
  | [a, b] => "expected " ++ inAccents a ++ " or " ++ inAccents b
  | names => "expected one of " ++ ", ".intercalate (names.map inAccents)

/-- What the user is told. -/
def message : Flaw → String
  | endInList => "EOF while parsing a list"
  | endInObject => "EOF while parsing an object"
  | endInString => "EOF while parsing a string"
  | endInValue => "EOF while parsing a value"
  | colonExpected => "expected " ++ inAccents ":"
  | listEndExpected => "expected " ++ inAccents "," ++ " or " ++ inAccents "]"
  | objectEndExpected => "expected " ++ inAccents "," ++ " or " ++ inAccents "\x7d"
  | wordExpected => "expected ident"
  | valueExpected => "expected value"
  | badEscape => "invalid escape"
  | badNumber => "invalid number"
  | numberTooLarge => "number out of range"
  | controlInString => "control character (\\u0000-\\u001F) found while parsing a string"
  | nameExpected => "key must be a string"
  | loneSurrogate => "lone leading surrogate in hex escape"
  | surrogateExpected => "unexpected end of hex escape"
  | trailingComma => "trailing comma"
  | trailingText => "trailing characters"
  | tooDeep => "recursion limit exceeded"
  | wrongType found expected => "invalid type: " ++ found ++ ", expected " ++ expected
  | wrongValue found expected => "invalid value: " ++ found ++ ", expected " ++ expected
  | wrongLength found expected => "invalid length " ++ toString found ++ ", expected " ++ expected
  | unknownVariant found expected =>
    "unknown variant " ++ inAccents found ++ ", " ++ alternatives expected
  | missingField name => "missing field " ++ inAccents name
  | duplicateField name => "duplicate field " ++ inAccents name

end Flaw

/-- What is wrong, and on which line and at which column it was found, if that is known. -/
structure Misfit where
  flaw : Flaw
  place : Option (Nat × Nat)
deriving DecidableEq, Inhabited, Repr

namespace Misfit

/-- Gives a flaw without a place the given one. -/
def placedAt (line column : Nat) (m : Misfit) : Misfit :=
  if m.place.isSome then m else { m with place := some (line, column) }

/-- What the user is told. -/
def message (m : Misfit) : String :=
  match m.place with
  | none => m.flaw.message
  | some (line, column) =>
    m.flaw.message ++ " at line " ++ toString line ++ " column " ++ toString column

end Misfit

end Scratchpad.Json
