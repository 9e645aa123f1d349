import Scratchpad.Toml.Grammar

/-!
# The text of strings and keys

What a string or a key stands for. Between apostrophes everything stands for itself, between quotation
marks a backslash begins an escape. A string between three marks may span lines: a line end right behind
the opening is not part of it, and a backslash at the end of a line makes it go on at the next character
that is not blank.

## Main definitions

* `textOf`: the text of a string.
* `nameOf`: the text of a name in a key.
-/

namespace Scratchpad.Toml

/-- There is a flaw at a place. -/
def failAt {α : Type} (flaw : Flaw) (place : Nat) : Except Misfit α := .error ⟨flaw, ⟨place, place⟩⟩

/-- Text without a suffix, if it ends with it. -/
def withoutSuffix? (suffix cs : List Char) : Option (List Char) :=
  if suffix.isSuffixOf cs then some (cs.take (cs.length - suffix.length)) else none

/-- Text without a line end at its beginning. -/
def withoutLineEnd : List Char → List Char
  | '\n' :: cs => cs
  | '\r' :: '\n' :: cs => cs
  | cs => cs

/-- What stands between the marks of a string, and the place where it begins. -/
def content (quoting : Quoting) (t : Token) : Except Misfit (Nat × List Char) :=
  let mark := quoting.mark.toList
  let body := t.text.drop mark.length
  let body :=
    match quoting with
    | .longLiteral | .longBasic => withoutLineEnd body
    | _ => body
  match withoutSuffix? mark body with
  | some inner => .ok (t.start + (byteSize t.text - byteSize body), inner)
  | none => failAt (.stringOpen quoting) t.span.stop

/-! ## Without escapes -/

/-- Checks a text that stands for itself. -/
def literalText (place : Nat) (cs : List Char) : Except Misfit (List Char) :=
  match Reader.firstOutside? (fun c => !Reader.isControl c) place cs with
  | some bad => failAt (.stringCharacter .literal) bad
  | none => .ok cs

/-- Checks a text of many lines that stands for itself. -/
def longLiteralText : (place : Nat) → List Char → Except Misfit (List Char)
  | _, [] => .ok []
  | place, c :: cs => do
    if c = '\r' ∧ cs.head? ≠ some '\n' then failAt .loneReturn place
    if c ≠ '\r' ∧ c ≠ '\n' ∧ Reader.isControl c then failAt (.stringCharacter .longLiteral) place
    return c :: (← longLiteralText (place + c.utf8Size) cs)

/-! ## Escapes -/

/-- The value of a hexadecimal digit. -/
def hexValue? (c : Char) : Option Nat :=
  if c.isDigit then some (c.toNat - 48)
  else if 'a' ≤ c ∧ c ≤ 'f' then some (c.toNat - 87)
  else if 'A' ≤ c ∧ c ≤ 'F' then some (c.toNat - 55)
  else none

/-- The character whose number is written in a number of hexadecimal digits. -/
def codeEscape (count place : Nat) (cs : List Char) : Except Misfit (Char × Nat) :=
  let digits := (cs.take count).filterMap hexValue?
  if digits.length < count then failAt .escapeTooShort place
  else
    let n := digits.foldl (fun n d => n * 16 + d) 0
    if n.isValidChar then .ok (Char.ofNat n, count + 1) else failAt .escapeOutOfRange place

/-- The character that an escape stands for, and how many characters it takes behind the backslash. -/
def escape (place : Nat) : List Char → Except Misfit (Char × Nat)
  | 'b' :: _ => .ok ('\x08', 1)
  | 'e' :: _ => .ok ('\x1b', 1)
  | 'f' :: _ => .ok ('\x0c', 1)
  | 'n' :: _ => .ok ('\n', 1)
  | 'r' :: _ => .ok ('\r', 1)
  | 't' :: _ => .ok ('\t', 1)
  | '\\' :: _ => .ok ('\\', 1)
  | '"' :: _ => .ok ('"', 1)
  | 'x' :: cs => codeEscape 2 (place + 1) cs
  | 'u' :: cs => codeEscape 4 (place + 1) cs
  | 'U' :: cs => codeEscape 8 (place + 1) cs
  | _ => failAt .escapeUnknown place

/-- How many controls follow each other. -/
def controlRun (cs : List Char) : Nat :=
  (cs.takeWhile fun c => Reader.isControl c && c != '\n' && c != '\r').length

/-- The text of a string with escapes. The characters of an escape are skipped once it is read. -/
def basicText : (skip place : Nat) → List Char → Except Misfit (List Char)
  | _, _, [] => .ok []
  | skip + 1, place, c :: cs => basicText skip (place + c.utf8Size) cs
  | 0, place, c :: cs => do
    if c = '\\' then
      let (d, taken) ← escape (place + 1) cs
      return d :: (← basicText taken (place + 1) cs)
    else if Reader.isControl c then
      let length := (cs.takeWhile Reader.isControl).length + 1
      throw ⟨.stringCharacter .basic, ⟨place, place + length⟩⟩
    else return c :: (← basicText 0 (place + c.utf8Size) cs)

/-- How many characters an escaped line end takes: the blanks before it, and all blanks and line ends
behind it. -/
def lineEscape : (seen : Bool) → (place : Nat) → List Char → Except Misfit Nat
  | seen, place, c :: cs => do
    if isBlank c then return (← lineEscape seen (place + 1) cs) + 1
    else if c = '\n' then return (← lineEscape true (place + 1) cs) + 1
    else if c = '\r' then
      if cs.head? = some '\n' then return (← lineEscape true (place + 1) cs) + 1
      else failAt .loneReturn (place + 1)
    else if seen then return 0
    else failAt .blanksEscaped place
  | seen, place, [] => if seen then .ok 0 else failAt .blanksEscaped place

/-- The text of a string of many lines with escapes. -/
def longBasicText : (skip place : Nat) → List Char → Except Misfit (List Char)
  | _, _, [] => .ok []
  | skip + 1, place, c :: cs => longBasicText skip (place + c.utf8Size) cs
  | 0, place, c :: cs => do
    if c = '\\' then
      if cs.head?.any fun d => isBlank d || d == '\n' || d == '\r' then
        longBasicText (← lineEscape false (place + 1) cs) (place + 1) cs
      else
        let (d, taken) ← escape (place + 1) cs
        return d :: (← longBasicText taken (place + 1) cs)
    else if c = '\r' ∧ cs.head? ≠ some '\n' then failAt .loneReturn (place + 1)
    else if c ≠ '\r' ∧ c ≠ '\n' ∧ Reader.isControl c then
      throw ⟨.stringCharacter .longBasic, ⟨place, place + controlRun (c :: cs)⟩⟩
    else return c :: (← longBasicText 0 (place + c.utf8Size) cs)

/-- The text of a string. -/
def textOf (quoting : Quoting) (t : Token) : Except Misfit String := do
  let (place, inner) ← content quoting t
  String.ofList <$>
    match quoting with
    | .literal => literalText place inner
    | .basic => basicText 0 place inner
    | .longLiteral => longLiteralText place inner
    | .longBasic => longBasicText 0 place inner

/-! ## Keys -/

/-- Whether a character may stand in a name without quotes. -/
def isBareName (c : Char) : Bool := c.isAlphanum || c == '-' || c == '_'

/-- The text of a name in a key. -/
def nameOf (t : Token) : Except Misfit String :=
  match t.kind with
  | .string .longLiteral => .error ⟨.keyTooLong .longLiteral, t.span⟩
  | .string .longBasic => .error ⟨.keyTooLong .longBasic, t.span⟩
  | .string quoting => textOf quoting t
  | _ =>
    if t.text.isEmpty then failAt .keyEmpty t.start
    else
      match Reader.firstOutside? isBareName t.start t.text with
      | some place => failAt .keyCharacter place
      | none => .ok (String.ofList t.text)

end Scratchpad.Toml
