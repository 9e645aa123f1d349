import Scratchpad.Json.Scalar

/-!
# Reading values

A value is read as it stands, or passed over when nobody asks for it. Passing over is less strict than
reading: it does not look into escapes by number, and it does not mind how deep values are nested.

## Main definitions

* `Reader.value`: a value.
* `Reader.skipValue`: passes a value.
* `Reader.unexpected`: the flaw that a value is when another one was expected.
* `Reader.document`: reads a whole text.
-/

namespace Scratchpad.Json.Reader

variable {α : Type}

/-- How deep values may be nested. -/
def greatestDepth : Nat := 127

/-- A value that is no list and no object, given its first character. -/
def scalar (c : Char) : Reader Value := do
  if c = 'n' then do advance; word "ull".toList; return .null
  else if c = 't' then do advance; word "rue".toList; return .boolean true
  else if c = 'f' then do advance; word "alse".toList; return .boolean false
  else if c = '-' then do advance; number false
  else if c.isDigit then number true
  else if c = '"' then do advance; .text <$> string
  else failAhead .valueExpected

mutual

/-- A value. Every step passes a character. -/
def valueWithin (fuel depth : Nat) : Reader Value := do
  match fuel with
  | 0 => failHere .endInValue
  | fuel + 1 =>
    let c ← valueStart
    if c = '[' then enclosed depth listEnd fun depth => .list <$> itemsWithin fuel depth true
    else if c = '\x7b' then enclosed depth objectEnd fun depth => .object <$> fieldsWithin fuel depth true
    else scalar c

/-- The items of a list that are left. -/
def itemsWithin (fuel depth : Nat) (isFirst : Bool) : Reader (List Value) := do
  match fuel with
  | 0 => failHere .endInList
  | fuel + 1 =>
    if ← hasItem isFirst then
      let item ← valueWithin fuel depth
      let items ← itemsWithin fuel depth false
      return item :: items
    else return []

/-- The fields of an object that are left. -/
def fieldsWithin (fuel depth : Nat) (isFirst : Bool) : Reader (List (String × Value)) := do
  match fuel with
  | 0 => failHere .endInObject
  | fuel + 1 =>
    if ← hasName isFirst then
      advance
      let name ← string
      colon
      let item ← valueWithin fuel depth
      let fields ← fieldsWithin fuel depth false
      return (name, item) :: fields
    else return []

end

/-- Enough steps for what is left of the text. -/
def enough : Reader Nat := return 2 * (← rest).length + 2

/-- A value, nested to a depth. -/
def value (depth : Nat) : Reader Value := do valueWithin (← enough) depth

/-! ## Passing over values -/

/-- Passes a value that is no list and no object, given its first character. -/
def skipScalar (c : Char) : Reader Unit := do
  if c = 'n' then do advance; word "ull".toList
  else if c = 't' then do advance; word "rue".toList
  else if c = 'f' then do advance; word "alse".toList
  else if c = '-' then do advance; skipNumber
  else if c.isDigit then skipNumber
  else if c = '"' then do advance; skipString
  else failAhead .valueExpected

/-- Passes the name of a field and its colon. -/
def skipName : Reader Unit := do
  match ← next? with
  | some '"' => advance
  | some _ => failAhead .nameExpected
  | none => failAhead .endInObject
  skipString
  colon

mutual

/-- Passes a value. Every step passes a character. -/
def skipWithin (fuel : Nat) : Reader Unit := do
  match fuel with
  | 0 => failHere .endInValue
  | fuel + 1 =>
    let c ← valueStart
    if c = '[' then do advance; skipItems fuel false true
    else if c = '\x7b' then do advance; skipItems fuel true true
    else skipScalar c

/-- Passes what is left of a list or an object, with its end. -/
def skipItems (fuel : Nat) (isObject isFirst : Bool) : Reader Unit := do
  match fuel with
  | 0 => failHere .endInValue
  | fuel + 1 =>
    match ← next? with
    | none => failAhead (if isObject then .endInObject else .endInList)
    | some c =>
      if c = (if isObject then '\x7d' else ']') then advance
      else if c = ',' && !isFirst then do
        advance
        skipItem fuel isObject
      else if isFirst then skipItem fuel isObject
      else failAhead (if isObject then .objectEndExpected else .listEndExpected)

/-- Passes an item and what follows it. -/
def skipItem (fuel : Nat) (isObject : Bool) : Reader Unit := do
  match fuel with
  | 0 => failHere .endInValue
  | fuel + 1 =>
    if isObject then skipName
    skipWithin fuel
    skipItems fuel isObject false

end

/-- Passes a value. -/
def skipValue : Reader Unit := do skipWithin (2 * (← enough))

/-! ## What was expected -/

/-- The flaw that the value is which begins here, when another one was expected. A list or an object need
not be read to be known for one. -/
def unexpected (expected : String) : Reader α := placed do
  match ← peek? with
  | some '[' => failNowhere (.wrongType (Value.list []).description expected)
  | some '\x7b' => failNowhere (.wrongType (Value.object []).description expected)
  | some c =>
    let found ← scalar c
    failNowhere (.wrongType found.description expected)
  | none => failAhead .valueExpected

/-- Reads a whole text. Behind the value nothing but blanks may follow. -/
def document (r : Reader α) (s : String) : Except Misfit α :=
  let whole : Reader α := do
    let a ← r
    match ← next? with
    | some _ => failAhead .trailingText
    | none => return a
  (whole.run (Cursor.start s.toList)).1

end Scratchpad.Json.Reader
