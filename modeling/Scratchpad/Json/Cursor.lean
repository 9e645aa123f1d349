import Scratchpad.Json.Flaw

/-!
# Cursors

A reader walks through a text and keeps track of the line and the column at which it is, counted in
bytes. What is wrong is found at a position: where the reader is, behind the next byte, or nowhere in
particular. A flaw found nowhere in particular is placed by whoever reads the enclosing value, once the
end of that value has been looked for.

## Main definitions

* `Cursor`: a position and the text behind it.
* `Reader`: what reads from a cursor.
* `Reader.failHere`, `Reader.failAhead`, `Reader.failNowhere`, `Reader.placed`: flaws and their places.
* `Reader.next?`: the next character that is not blank.
* `Reader.enclosed`: something between brackets.
-/

namespace Scratchpad.Json

/-- A position in a text and what follows it. Lines count from one, columns from zero. -/
structure Cursor where
  line : Nat
  column : Nat
  rest : List Char
deriving DecidableEq, Inhabited, Repr

namespace Cursor

/-- The beginning of a text. -/
def start (cs : List Char) : Cursor := ⟨1, 0, cs⟩

/-- The position behind some bytes, given the text that they are taken from. -/
def positionAfter : Nat → Nat → Nat → List Char → Nat × Nat
  | line, column, _, [] => (line, column)
  | line, column, bytes, c :: cs =>
    if bytes = 0 then (line, column)
    else if c = '\n' then positionAfter (line + 1) 0 (bytes - 1) cs
    else if c.utf8Size ≤ bytes then positionAfter line (column + c.utf8Size) (bytes - c.utf8Size) cs
    else (line, column + bytes)

/-- The cursor behind the next character. -/
def advance (k : Cursor) : Cursor :=
  match k.rest with
  | [] => k
  | c :: cs => if c = '\n' then ⟨k.line + 1, 0, cs⟩ else ⟨k.line, k.column + c.utf8Size, cs⟩

/-- The cursor behind the characters that satisfy a test. -/
def skipWhile (p : Char → Bool) (k : Cursor) : Cursor :=
  (k.rest.takeWhile p).foldl (fun k _ => k.advance) k

end Cursor

/-- Reads from a cursor. The cursor stays where it is when reading fails. -/
abbrev Reader (α : Type) := ExceptT Misfit (StateM Cursor) α

namespace Reader

variable {α β : Type}

/-- What follows. -/
def rest : Reader (List Char) := return (← get).rest

/-- The next character. -/
def peek? : Reader (Option Char) := return (← rest).head?

/-- Passes the next character. -/
def advance : Reader Unit := modify Cursor.advance

/-- Passes the next characters as far as they satisfy a test, and returns them. -/
def takeWhile (p : Char → Bool) : Reader (List Char) := do
  let k ← get
  set (k.skipWhile p)
  return k.rest.takeWhile p

/-- There is a flaw where the reader is. -/
def failHere (flaw : Flaw) : Reader α := do
  let k ← get
  throw ⟨flaw, some (k.line, k.column)⟩

/-- There is a flaw that reaches some bytes ahead. -/
def failAfter (bytes : Nat) (flaw : Flaw) : Reader α := do
  let k ← get
  throw ⟨flaw, some (Cursor.positionAfter k.line k.column bytes k.rest)⟩

/-- There is a flaw in the next byte. -/
def failAhead (flaw : Flaw) : Reader α := failAfter 1 flaw

/-- There is a flaw whose place is not known yet. -/
def failNowhere (flaw : Flaw) : Reader α := throw ⟨flaw, none⟩

/-- Gives a flaw without a place the place where the reader is. -/
def placed (r : Reader α) : Reader α :=
  tryCatch r fun misfit => do
    let k ← get
    throw (misfit.placedAt k.line k.column)

/-- Whether a character is blank. -/
def isBlank (c : Char) : Bool := c == ' ' || c == '\n' || c == '\t' || c == '\r'

/-- The next character behind blanks. -/
def next? : Reader (Option Char) := do
  modify (Cursor.skipWhile isBlank)
  peek?

/-- The next character behind blanks, where a value has to begin. -/
def valueStart : Reader Char := do
  match ← next? with
  | some c => return c
  | none => failAhead .endInValue

/-- The word of which the first letter has been passed. -/
def word (letters : List Char) : Reader Unit :=
  letters.forM fun expected => do
    match ← peek? with
    | none => failHere .endInValue
    | some c => if c = expected then advance else failAhead .wordExpected

/-- The end of a list. -/
def listEnd : Reader Unit := do
  match ← next? with
  | some ']' => advance
  | some ',' =>
    advance
    match ← next? with
    | some ']' => failAhead .trailingComma
    | _ => failAhead .trailingText
  | some _ => failAhead .trailingText
  | none => failAhead .endInList

/-- The end of an object. -/
def objectEnd : Reader Unit := do
  match ← next? with
  | some '\x7d' => advance
  | some ',' => failAhead .trailingComma
  | some _ => failAhead .trailingText
  | none => failAhead .endInObject

/-- What stands between brackets. The closing bracket is looked for in any case, but a flaw in front of it
counts first. Values within values are read to a limited depth. -/
def enclosed (depth : Nat) (close : Reader Unit) (body : Nat → Reader α) : Reader α := do
  match depth with
  | 0 => failAhead .tooDeep
  | depth + 1 =>
    advance
    let read ← observing (body depth)
    let closed ← observing close
    match read, closed with
    | .ok a, .ok () => return a
    | .error misfit, _ => throw misfit
    | .ok _, .error misfit => throw misfit
where
  /-- What a reader returns, be it a flaw. -/
  observing {γ : Type} (r : Reader γ) : Reader (Except Misfit γ) :=
    tryCatch (Except.ok <$> r) fun misfit => return .error misfit

/-- Whether another item of a list follows. -/
def hasItem (isFirst : Bool) : Reader Bool := do
  match ← next? with
  | some ']' => return false
  | some c =>
    if c = ',' && !isFirst then
      advance
      match ← next? with
      | some ']' => failAhead .trailingComma
      | some _ => return true
      | none => failAhead .endInValue
    else if isFirst then return true
    else failAhead .listEndExpected
  | none => failAhead .endInList

/-- Whether another name of an object follows. -/
def hasName (isFirst : Bool) : Reader Bool := do
  match ← next? with
  | some '\x7d' => return false
  | some c =>
    if c = ',' && !isFirst then
      advance
      match ← next? with
      | some '"' => return true
      | some '\x7d' => failAhead .trailingComma
      | some _ => failAhead .nameExpected
      | none => failAhead .endInValue
    else if isFirst then
      if c = '"' then return true else failAhead .nameExpected
    else failAhead .objectEndExpected
  | none => failAhead .endInObject

/-- The colon behind a name. -/
def colon : Reader Unit := do
  match ← next? with
  | some ':' => advance
  | some _ => failAhead .colonExpected
  | none => failAhead .endInObject

end Reader

end Scratchpad.Json
