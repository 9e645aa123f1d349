import Scratchpad.Json.Document

/-!
# Decoders

A decoder takes data of a type from a text, or from a value that has been read already. From a text it
takes things as they come, so that of two flaws the one that stands first counts. A record may be written
as an object, whose fields come in any order and may hold more than is asked for, or as the list of its
fields. A tagged record is an object, or a list, in which one field tells what kind of record it is; the
rest of it is decoded once all of it has been read.

## Main definitions

* `Decoder`: takes data from a text or a value.
* `Decoder.text`, `Decoder.whole`, `Decoder.optional`, `Decoder.list`: decoders of plain data.
* `Decoder.oneOf`: a decoder of names.
* `Shape`, `Shape.decoder`: records, and their decoder.
* `Tagged`, `Tagged.decoder`: tagged records, and their decoder.
-/

namespace Scratchpad.Json

variable {α β δ : Type}

/-- Takes data of a type from a text, up to a depth of nesting, or from a value. -/
structure Decoder (α : Type) where
  fromText : (depth : Nat) → Reader α
  fromValue : Value → Except Flaw α

namespace Decoder

open Reader

/-- A decoder whose data are changed. -/
def map (f : α → β) (d : Decoder α) : Decoder β :=
  ⟨fun depth => f <$> d.fromText depth, fun v => f <$> d.fromValue v⟩

/-- The flaw that a value is when another one was expected. -/
def unexpectedValue (v : Value) (expected : String) : Except Flaw α :=
  .error (.wrongType v.description expected)

/-- Takes what is given to the end, or leaves a flaw whose place is not known. -/
def lift : Except Flaw α → Reader α
  | .ok a => return a
  | .error flaw => failNowhere flaw

/-- Decodes a string. -/
def ofString (expected : String) (f : String → Except Flaw α) : Decoder α where
  fromText _ := do
    let c ← valueStart
    if c = '"' then placed do
      advance
      lift (f (← string))
    else unexpected expected
  fromValue
    | .text s => f s
    | v => unexpectedValue v expected

/-- Decodes a text. -/
def text : Decoder String := ofString "a string" .ok

/-- A whole number within bounds. -/
def within (least greatest : Int) (expected : String) (v : Value) : Except Flaw Int :=
  match v with
  | .whole n =>
    if least ≤ n && n ≤ greatest then .ok n else .error (.wrongValue v.description expected)
  | _ => unexpectedValue v expected

/-- Decodes a whole number within bounds. -/
def whole (least greatest : Int) (expected : String) : Decoder Int where
  fromText _ := do
    let c ← valueStart
    if c = '-' then placed do
      advance
      lift (within least greatest expected (← number false))
    else if c.isDigit then placed do
      lift (within least greatest expected (← number true))
    else unexpected expected
  fromValue := within least greatest expected

/-- Decodes what may be absent. -/
def optional (d : Decoder α) : Decoder (Option α) where
  fromText depth := do
    match ← next? with
    | some 'n' => do advance; word "ull".toList; return none
    | _ => some <$> d.fromText depth
  fromValue
    | .null => .ok none
    | v => some <$> d.fromValue v

/-- Decodes items from values. -/
def listFromValue (d : Decoder α) : Value → Except Flaw (List α)
  | .list items => items.mapM d.fromValue
  | v => unexpectedValue v "a sequence"

/-! ## Names -/

/-- The datum that a name stands for. -/
def named (variants : List (String × α)) (name : String) : Except Flaw α :=
  match variants.lookup name with
  | some a => .ok a
  | none => .error (.unknownVariant name (variants.map (·.1)))

/-- Decodes a name. -/
def variant (variants : List (String × α)) : Decoder α :=
  ofString "variant identifier" (named variants)

/-- Decodes nothing. -/
def unit : Decoder Unit where
  fromText _ := do
    let c ← valueStart
    if c = 'n' then do advance; word "ull".toList
    else unexpected "unit"
  fromValue
    | .null | .object [] => .ok ()
    | v => unexpectedValue v "unit"

/-- Decodes a name, which may stand alone or be the only field of an object, with nothing in it. -/
def oneOf (variants : List (String × α)) : Decoder α where
  fromText depth := do
    match ← next? with
    | none => failAhead .endInValue
    | some '"' => (variant variants).fromText depth
    | some '\x7b' =>
      match depth with
      | 0 => failAhead .tooDeep
      | depth + 1 =>
        advance
        let a ← (variant variants).fromText depth
        colon
        unit.fromText depth
        match ← next? with
        | some '\x7d' => do advance; return a
        | some _ => failHere .valueExpected
        | none => failHere .endInObject
    | some _ => failAhead .valueExpected
  fromValue
    | .object [(name, content)] => do
      let a ← named variants name
      unit.fromValue content
      return a
    | .object fields => .error (.wrongValue (Value.object fields).description "map with a single key")
    | .text name => named variants name
    | v => unexpectedValue v "string or map"

end Decoder

/-! ## Records -/

/-- A field of a record, which is put together in a draft. -/
structure Field (δ : Type) where
  name : String
  /-- Whether the draft has the field already. -/
  isPresent : δ → Bool
  /-- Adds the field to a draft. -/
  addition : Decoder (δ → δ)
  /-- Whether a list may end before the field. -/
  isOptional : Bool

/-- A kind of record. -/
structure Shape (δ α : Type) where
  /-- How the kind is called. -/
  name : String
  fields : List (Field δ)
  /-- The draft without any field. -/
  blank : δ
  /-- The record of a draft, or the first field that it lacks. -/
  complete : δ → Except Flaw α

namespace Shape

open Reader

/-- How a number of items is written. -/
def count (n : Nat) : String := toString n ++ (if n = 1 then " element" else " elements")

/-- The field of a name. -/
def field? (s : Shape δ α) (name : String) : Option (Field δ) := s.fields.find? (·.name == name)

/-- The flaw of a list that ends too soon. -/
def tooShort (s : Shape δ α) (length : Nat) : Flaw :=
  .wrongLength length (s.name ++ " with " ++ count s.fields.length)

/-- Reads the fields of an object. Every step passes a character. -/
def readFields (s : Shape δ α) (depth : Nat) : Nat → Bool → δ → Reader δ
  | 0, _, _ => failHere .endInObject
  | fuel + 1, isFirst, draft => do
    if ← hasName isFirst then
      advance
      let name ← string
      match s.field? name with
      | some field =>
        if field.isPresent draft then failNowhere (.duplicateField name)
        else
          colon
          let add ← field.addition.fromText depth
          s.readFields depth fuel false (add draft)
      | none =>
        colon
        skipValue
        s.readFields depth fuel false draft
    else return draft

/-- Reads the fields that are left from a list. -/
def readItems (s : Shape δ α) (depth : Nat) : List (Field δ) → Nat → δ → Reader δ
  | [], _, draft => return draft
  | field :: fields, position, draft => do
    if ← hasItem (position == 0) then
      let add ← field.addition.fromText depth
      s.readItems depth fields (position + 1) (add draft)
    else if field.isOptional then s.readItems depth fields (position + 1) draft
    else failNowhere (s.tooShort position)

/-- The draft of the fields of an object. -/
def ofFields (s : Shape δ α) : List (String × Value) → δ → Except Flaw δ
  | [], draft => .ok draft
  | (name, v) :: rest, draft =>
    match s.field? name with
    | some field =>
      if field.isPresent draft then .error (.duplicateField name)
      else do s.ofFields rest ((← field.addition.fromValue v) draft)
    | none => s.ofFields rest draft

/-- The draft of the items of a list. -/
def ofItems (s : Shape δ α) : List (Field δ) → Nat → List Value → δ → Except Flaw δ
  | [], position, [], draft => let _ := position; .ok draft
  | [], position, rest@(_ :: _), _ =>
    .error (.wrongLength (position + rest.length) (count position ++ " in sequence"))
  | field :: fields, position, v :: rest, draft => do
    s.ofItems fields (position + 1) rest ((← field.addition.fromValue v) draft)
  | field :: fields, position, [], draft =>
    if field.isOptional then s.ofItems fields (position + 1) [] draft
    else .error (s.tooShort position)

/-- The record of a value. -/
def fromValue (s : Shape δ α) : Value → Except Flaw α
  | .object fields => do s.complete (← s.ofFields fields s.blank)
  | .list items => do s.complete (← s.ofItems s.fields 0 items s.blank)
  | v => Decoder.unexpectedValue v s.name

/-- Reads a record. -/
def fromText (s : Shape δ α) (depth : Nat) : Reader α := do
  match ← valueStart with
  | '[' => placed <| enclosed depth listEnd fun depth => do
    Decoder.lift (s.complete (← s.readItems depth s.fields 0 s.blank))
  | '\x7b' => placed <| enclosed depth objectEnd fun depth => do
    Decoder.lift (s.complete (← s.readFields depth (← enough) true s.blank))
  | _ => unexpected s.name

/-- Decodes records. -/
def decoder (s : Shape δ α) : Decoder α := ⟨s.fromText, s.fromValue⟩

end Shape

/-! ## Tagged records -/

/-- Records of several kinds, which a tag tells apart. -/
structure Tagged (α : Type) where
  /-- How the records are called. -/
  name : String
  /-- The field that holds the tag. -/
  tag : String
  /-- The kinds, each with the data that its content stands for. -/
  kinds : List (String × (Value → Except Flaw α))

namespace Tagged

open Reader

/-- Reads the fields of an object, and the kind that the tag among them tells. -/
def readFields (t : Tagged α) (depth : Nat) :
    Nat → Bool → Option (Value → Except Flaw α) → List (String × Value) →
      Reader ((Value → Except Flaw α) × Value)
  | 0, _, _, _ => failHere .endInObject
  | fuel + 1, isFirst, kind, fields => do
    if ← hasName isFirst then
      advance
      let name ← string
      if name = t.tag then
        if kind.isSome then failNowhere (.duplicateField t.tag)
        else
          colon
          let kind ← (Decoder.variant t.kinds).fromText depth
          t.readFields depth fuel false (some kind) fields
      else
        colon
        let v ← value depth
        t.readFields depth fuel false kind ((name, v) :: fields)
    else match kind with
      | some kind => return (kind, .object fields.reverse)
      | none => failNowhere (.missingField t.tag)

/-- Reads the items of a list, of which the first is the tag. -/
def readItems (t : Tagged α) (depth : Nat) : Reader ((Value → Except Flaw α) × Value) := do
  if ← hasItem true then
    let kind ← (Decoder.variant t.kinds).fromText depth
    return (kind, .list (← itemsWithin (← enough) depth false))
  else failNowhere (.missingField t.tag)

/-- Reads a tag and what is tagged. What is not an object or a list is read to its end. -/
def readContent (t : Tagged α) (depth : Nat) : Reader ((Value → Except Flaw α) × Value) := do
  match ← valueStart with
  | '[' => placed <| enclosed depth listEnd t.readItems
  | '\x7b' => placed <| enclosed depth objectEnd fun depth => do
    t.readFields depth (← enough) true none []
  | _ => unexpected t.name

/-- Reads a tagged record. The content is looked at once it has been read, so that its flaws have no
place. -/
def fromText (t : Tagged α) (depth : Nat) : Reader α := do
  let (kind, content) ← t.readContent depth
  Decoder.lift (kind content)

/-- The kind of a tag that has been read as a value. It may be told by its number. -/
def kindOf (t : Tagged α) : Value → Except Flaw (Value → Except Flaw α)
  | .text name => Decoder.named t.kinds name
  | .whole n =>
    if n < 0 then Decoder.unexpectedValue (.whole n) "variant identifier"
    else match t.kinds[n.toNat]? with
      | some (_, kind) => .ok kind
      | none =>
        .error (.wrongValue (Value.whole n).description
          ("variant index 0 <= i < " ++ toString t.kinds.length))
  | v => Decoder.unexpectedValue v "variant identifier"

/-- The kind and the content of an object. -/
def ofFields (t : Tagged α) : List (String × Value) → Option (Value → Except Flaw α) →
    List (String × Value) → Except Flaw ((Value → Except Flaw α) × Value)
  | [], some kind, fields => .ok (kind, .object fields.reverse)
  | [], none, _ => .error (.missingField t.tag)
  | (name, v) :: rest, kind, fields =>
    if name = t.tag then
      if kind.isSome then .error (.duplicateField t.tag)
      else do t.ofFields rest (some (← t.kindOf v)) fields
    else t.ofFields rest kind ((name, v) :: fields)

/-- The tagged record of a value. -/
def fromValue (t : Tagged α) : Value → Except Flaw α
  | .object fields => do
    let (kind, content) ← t.ofFields fields none []
    kind content
  | .list [] => .error (.missingField t.tag)
  | .list (tag :: items) => do (← t.kindOf tag) (.list items)
  | v => Decoder.unexpectedValue v t.name

/-- Decodes tagged records. -/
def decoder (t : Tagged α) : Decoder α := ⟨t.fromText, t.fromValue⟩

end Tagged

end Scratchpad.Json
