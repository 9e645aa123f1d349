import Scratchpad.Toml.Token

/-!
# Flaws of documents

What is wrong with a document, where, and how it is shown: the place by line and column, the line itself
with the stretch marked below it, and what was expected instead.

## Main definitions

* `Flaw`, `Flaw.message`: what is wrong, and what the user is told.
* `Misfit`, `Misfit.report`: a flaw with the stretch in which it was found, and how both are shown.
* `placeOf`: the line and the column of a place.
-/

namespace Scratchpad.Toml

/-- What has to come next within a table that stands on one line. -/
inductive Need where
  | key
  | equals
  | value
  | comma
deriving DecidableEq, Inhabited, Repr

/-- How the digits of a whole number are read. -/
inductive Radix where
  | binary
  | octal
  | decimal
  | hexadecimal
deriving DecidableEq, Inhabited, Repr

/-- The parts of a number in which digits are expected. -/
inductive NumberPart where
  | mantissa
  | fraction
  | exponent
deriving DecidableEq, Inhabited, Repr

/-- What is wrong with a document. -/
inductive Flaw where
  /-- The heading of a table, or of one of many tables, is not closed by a mark. -/
  | headingOpen (ofMany : Bool) (mark : String)
  | headingUnopened
  | valueMissing
  | keyExpected
  | secondEquals
  | listUnopened
  | tableUnopened
  | listUnclosed
  | tableUnclosed
  | commaInList
  | equalsInList
  | commaMissingInList
  | commaInTable (need : Need)
  | equalsInTable (need : Need)
  | keyMissingInTable (need : Need)
  | equalsMissingInTable
  | strayInTable (need : Need)
  | keyInTable
  | commaMissingInTable
  | lineEndExpected
  | tooDeep
  | loneReturn
  | commentCharacter
  | keyEmpty
  | keyCharacter
  | keyTooLong (quoting : Quoting)
  | stringOpen (quoting : Quoting)
  | stringCharacter (quoting : Quoting)
  | escapeUnknown
  | escapeTooShort
  | escapeOutOfRange
  | blanksEscaped
  | unquoted
  /-- A word that is almost the name of a truth value or of a number. -/
  | wordMisspelt (isNumber : Bool) (word : String)
  | signTwice
  | signBeforeRadix
  | signBehindRadix
  | radixCapital (mark : String)
  | radixRedundant
  | foreignDigit (radix : Radix)
  | leadingZero
  | digitsMissing (part : NumberPart)
  | numberTail
  | separatorMisplaced
  /-- A part of a date or a time is not as it has to be. -/
  | moment (part : String) (expected : Option String)
  | keyTwice
  | notExtensible (type : String)
  /-- A value of another type was expected. -/
  | wrongType (found expected : String)
  /-- Another value of the type was expected. -/
  | wrongValue (found expected : String)
  /-- A number cannot be held. -/
  | numberTooLarge (isReal : Bool)
deriving DecidableEq, Inhabited, Repr

/-- A text between grave accents. -/
def inAccents (s : String) : String := "\x60" ++ s ++ "\x60"

/-- What is wrong, and what was expected. -/
def expecting (wrong : String) (expected : List String) : String :=
  wrong ++ ", expected " ++ (if expected.isEmpty then "nothing" else ", ".intercalate expected)

/-- What is expected next. -/
def Need.expected : Need → String
  | key => "key"
  | equals => inAccents "="
  | value => "value"
  | comma => inAccents ","

/-- How strings of a kind are called. -/
def Quoting.name : Quoting → String
  | literal => "literal string"
  | basic => "basic string"
  | longLiteral => "multi-line literal string"
  | longBasic => "multi-line basic string"

/-- What strings of a kind begin and end with. -/
def Quoting.mark : Quoting → String
  | literal => "'"
  | basic => "\""
  | longLiteral => "'''"
  | longBasic => "\"\"\""

/-- What strings of a kind are made of. -/
def Quoting.content : Quoting → List String
  | literal => ["non-single-quote visible characters"]
  | basic => ["non-double-quote visible characters", inAccents "\\"]
  | longLiteral => ["non-single-quote characters"]
  | longBasic => ["characters", inAccents "\\"]

/-- How the digits of a radix are called. -/
def Radix.name : Radix → String
  | binary => "binary"
  | octal => "octal"
  | decimal => "integer"
  | hexadecimal => "hexadecimal"

/-- How a part of a number is called. -/
def NumberPart.name : NumberPart → String
  | mantissa => "mantissa"
  | fraction => "fraction"
  | exponent => "exponent"

namespace Flaw

/-- What a key without quotes is made of. -/
def keyContent : List String := ["letters", "numbers", inAccents "-", inAccents "_"]

/-- What may stand behind a backslash. -/
def escapes : List String := ["b", "e", "f", "n", "r", "\\", "\"", "x", "u", "U"].map inAccents

/-- What the user is told. -/
def message : Flaw → String
  | headingOpen ofMany mark =>
    expecting (if ofMany then "unclosed array table" else "unclosed table") [inAccents mark]
  | headingUnopened => expecting "missing table open" [inAccents "["]
  | valueMissing => expecting "key with no value" [inAccents "="]
  | keyExpected => expecting "invalid key-value pair" ["key"]
  | secondEquals => expecting ("extra " ++ inAccents "=") []
  | listUnopened => expecting "missing array opening" [inAccents "["]
  | tableUnopened => expecting "missing inline table opening" [inAccents "\x7b"]
  | listUnclosed => expecting "unclosed array" [inAccents "]"]
  | tableUnclosed => expecting "unclosed inline table" [inAccents "\x7d"]
  | commaInList => expecting "extra comma in array" ["value"]
  | equalsInList => expecting ("unexpected " ++ inAccents "=" ++ " in array") ["value", inAccents "]"]
  | commaMissingInList => expecting "missing comma between array elements" [inAccents ","]
  | commaInTable need => expecting "extra comma in inline table" [need.expected]
  | equalsInTable need => expecting "extra assignment between key-value pairs" [need.expected]
  | keyMissingInTable need => expecting "missing key for inline table element" [need.expected]
  | equalsMissingInTable => expecting "missing assignment between key-value pairs" [Need.equals.expected]
  | strayInTable need => expecting "invalid inline table element" [need.expected]
  | keyInTable => expecting "extra key" [Need.equals.expected]
  | commaMissingInTable => expecting "missing comma between key-value pairs" [Need.comma.expected]
  | lineEndExpected => expecting "unexpected key or value" ["newline", inAccents "#"]
  | tooDeep => "cannot recurse further; max recursion depth met"
  | loneReturn => expecting "carriage return must be followed by newline" ["newline"]
  | commentCharacter => expecting "invalid comment character" ["printable characters"]
  | keyEmpty => expecting "unquoted keys cannot be empty" keyContent
  | keyCharacter => expecting "invalid unquoted key" keyContent
  | keyTooLong quoting =>
    expecting ("keys cannot be " ++ quoting.name ++ "s") [Quoting.basic.name, Quoting.literal.name]
  | stringOpen quoting => expecting ("invalid " ++ quoting.name) [inAccents quoting.mark]
  | stringCharacter quoting => expecting ("invalid " ++ quoting.name) quoting.content
  | escapeUnknown => expecting "missing escaped value" escapes
  | escapeTooShort => expecting "too few unicode value digits" ["unicode hexadecimal value"]
  | escapeOutOfRange => expecting "invalid value" ["unicode hexadecimal value"]
  | blanksEscaped => expecting ("invalid " ++ Quoting.longBasic.name) ["newline"]
  | unquoted => expecting "string values must be quoted" ["literal string"]
  | wordMisspelt isNumber word =>
    expecting (if isNumber then "invalid float" else "invalid boolean") [inAccents word]
  | signTwice => expecting "redundant numeric sign" []
  | signBeforeRadix => expecting "integers with a radix cannot be signed" []
  | signBehindRadix => expecting "unexpected sign" []
  | radixCapital mark => expecting "radix must be lowercase" [inAccents mark]
  | radixRedundant => expecting "redundant integer number prefix" []
  | foreignDigit radix => "invalid " ++ radix.name ++ " number"
  | leadingZero => expecting "unexpected leading zero" []
  | digitsMissing part => expecting ("invalid " ++ part.name) ["digits"]
  | numberTail => expecting "invalid float" []
  | separatorMisplaced => expecting (inAccents "_" ++ " may only go between digits") []
  | moment part none => "invalid " ++ part
  | moment part (some expected) => expecting ("invalid " ++ part) [expected]
  | keyTwice => "duplicate key"
  | notExtensible type => "cannot extend value of type " ++ type ++ " with a dotted key"
  | wrongType found expected => "invalid type: " ++ found ++ ", expected " ++ expected
  | wrongValue found expected => "invalid value: " ++ found ++ ", expected " ++ expected
  | numberTooLarge isReal =>
    if isReal then "floating-point number overflowed" else "integer number overflowed"

end Flaw

/-- What is wrong, and the stretch of the text in which it was found. -/
structure Misfit where
  flaw : Flaw
  span : Span
deriving DecidableEq, Inhabited, Repr

/-! ## Places -/

/-- The characters that begin before a place. -/
def charactersBefore : Nat → List Char → List Char
  | _, [] => []
  | 0, _ => []
  | bytes + 1, c :: cs => c :: charactersBefore (bytes + 1 - c.utf8Size) cs

/-- The line and the column of a place, both counted from zero. Before a character of one byte a column
is a character wide, before any other character it is a byte wide. The end of a text belongs to the line
of its last character. -/
def placeOf (cs : List Char) (place : Nat) : Nat × Nat :=
  let before := charactersBefore place cs
  let behind := cs.drop before.length
  -- the characters that are on an earlier line, or on this one, with the last of the text if it ends here
  let (passed, beyond) := if behind.isEmpty then (before.dropLast, min before.length 1) else (before, 0)
  let line := (passed.reverse.takeWhile (· != '\n')).reverse
  let isWide := behind.head?.any (·.utf8Size != 1)
  (passed.count '\n', (if isWide then byteSize line else line.length) + beyond)

/-- The text of a line, counted from zero. -/
def lineText : Nat → List Char → List Char
  | 0, cs => cs.takeWhile (· != '\n')
  | n + 1, cs => lineText n ((cs.dropWhile (· != '\n')).drop 1)

/-- How a misfit in a text is shown. -/
def Misfit.report (m : Misfit) (cs : List Char) : String :=
  let (line, column) := placeOf cs m.span.start
  let number := toString (line + 1)
  let content := lineText line cs
  let marked := min (m.span.stop - m.span.start) (byteSize content - column)
  let spaces (n : Nat) := String.ofList (List.replicate n ' ')
  "TOML parse error at line " ++ number ++ ", column " ++ toString (column + 1) ++ "\n" ++
    spaces (number.length + 1) ++ "|\n" ++
    number ++ " | " ++ String.ofList content ++ "\n" ++
    spaces (number.length + 1) ++ "|" ++ spaces (column + 1) ++
    String.ofList (List.replicate (max 1 marked) '^') ++ "\n" ++
    m.flaw.message ++ "\n"

end Scratchpad.Toml
