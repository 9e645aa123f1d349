import Scratchpad.Json.Cursor
import Scratchpad.Json.Value
import Scratchpad.Number.Digits
import Scratchpad.Number.Powers

/-!
# Reading strings and numbers

A string stands between quotes. Controls cannot stand in it as they are, and what lies beyond sixteen
bits is escaped by two surrogates. A number that has a point or an exponent, or that does not fit into a
word, is read as a number in binary: digits that no longer fit count by their number only.

## Main definitions

* `Reader.string`: the rest of a string, behind its opening quote.
* `Reader.number`: a number, behind its sign.
* `Reader.skipString`, `Reader.skipNumber`: the same when the value does not matter.
-/

namespace Scratchpad.Json

open Number (digitValue natOfDigits)

/-- Whether a character is a hexadecimal digit. -/
def isHexDigit (c : Char) : Bool :=
  c.isDigit || ('a' ≤ c && c ≤ 'f') || ('A' ≤ c && c ≤ 'F')

/-- The value of a hexadecimal digit. -/
def hexDigitValue (c : Char) : Nat :=
  if c.isDigit then c.toNat - '0'.toNat
  else if 'a' ≤ c then c.toNat - 'a'.toNat + 10
  else c.toNat - 'A'.toNat + 10

namespace Reader

/-! ## Strings -/

/-- The four digits of an escape. -/
def hexEscape : Reader Nat := do
  let rest ← rest
  let digits := rest.take 4
  if digits.length = 4 && digits.all isHexDigit then
    digits.forM fun _ => advance
    return digits.foldl (fun n d => n * 16 + hexDigitValue d) 0
  else
    let bytes := (rest.take 4).foldl (fun n c => n + c.utf8Size) 0
    if bytes < 4 then failAfter bytes .endInString else failAfter 4 .badEscape

/-- Passes a character that has to be there for a surrogate to be complete. -/
def surrogatePart (expected : Char) : Reader Unit := do
  match ← peek? with
  | none => failHere .endInString
  | some c => if c = expected then advance else failAhead .surrogateExpected

/-- The character of an escape by number. -/
def unicodeEscape : Reader Char := do
  let high ← hexEscape
  if 0xDC00 ≤ high && high ≤ 0xDFFF then failHere .loneSurrogate
  else if high < 0xD800 || 0xDBFF < high then return Char.ofNat high
  else
    surrogatePart '\\'
    surrogatePart 'u'
    let low ← hexEscape
    if low < 0xDC00 || 0xDFFF < low then failHere .loneSurrogate
    else return Char.ofNat (0x10000 + (high - 0xD800) * 0x400 + (low - 0xDC00))

/-- The characters that an escape by letter stands for. -/
def letterEscape? : Char → Option Char
  | '"' => some '"'
  | '\\' => some '\\'
  | '/' => some '/'
  | 'b' => some '\x08'
  | 'f' => some '\x0c'
  | 'n' => some '\n'
  | 'r' => some '\r'
  | 't' => some '\t'
  | _ => none

/-- The character of an escape, behind its backslash. -/
def escape (byNumber : Reader Char) : Reader Char := do
  match ← peek? with
  | none => failHere .endInString
  | some c =>
    match letterEscape? c with
    | some escaped => do advance; return escaped
    | none => if c = 'u' then do advance; byNumber else failAhead .badEscape

/-- The characters up to the closing quote. -/
def stringBody : Nat → List Char → Reader (List Char)
  | 0, _ => failHere .endInString
  | fuel + 1, read => do
    match ← peek? with
    | none => failHere .endInString
    | some c =>
      if c = '"' then do advance; return read.reverse
      else if c = '\\' then do
        advance
        let escaped ← escape unicodeEscape
        stringBody fuel (escaped :: read)
      else if c.toNat < 0x20 then failAhead .controlInString
      else do
        advance
        stringBody fuel (c :: read)

/-- A string, behind its opening quote. Every step passes a character. -/
def string : Reader String := do
  let read ← stringBody ((← rest).length + 1) []
  return String.ofList read

/-- Passes the characters up to the closing quote. -/
def skipStringBody : Nat → Reader Unit
  | 0 => failHere .endInString
  | fuel + 1 => do
    match ← peek? with
    | none => failHere .endInString
    | some c =>
      if c = '"' then advance
      else if c = '\\' then do
        advance
        let _ ← escape (Char.ofNat <$> hexEscape)
        skipStringBody fuel
      else if c.toNat < 0x20 then failHere .controlInString
      else do
        advance
        skipStringBody fuel

/-- Passes a string, behind its opening quote. -/
def skipString : Reader Unit := do skipStringBody ((← rest).length + 1)

/-! ## Numbers -/

/-- The largest word. -/
def largestWord : Nat := UInt64.size - 1

/-- Adds digits to a number as long as it stays below a bound, and returns the digits that are left. -/
def absorb (bound : Nat) : Nat → List Char → Nat × List Char
  | n, [] => (n, [])
  | n, d :: ds =>
    let m := n * 10 + digitValue d
    if m ≤ bound then absorb bound m ds else (n, d :: ds)

/-- A number divided by ten to a power that has no binary form, step by step. -/
def scaleDown : Nat → Float → Nat → Float
  | 0, x, _ => x
  | fuel + 1, x, e =>
    if e ≤ 308 then x / Float.ofScientific 1 false e
    else if x == 0 then x
    else scaleDown fuel (x / Float.ofScientific 1 false 308) (e - 308)

/-- A whole number times ten to an exponent, in binary, with a sign. -/
def scaled (isPositive : Bool) (n : Nat) (exponent : Int) : Reader Float := do
  let x := (UInt64.ofNat n).toFloat
  let signed (x : Float) : Float := if isPositive then x else -x
  if exponent < 0 then return signed (scaleDown (exponent.natAbs / 308 + 1) x exponent.natAbs)
  else if exponent ≤ 308 then
    let y := x * Float.ofScientific 1 false exponent.natAbs
    if y.isInf then failHere .numberTooLarge else return signed y
  else if n = 0 then return signed x
  else failHere .numberTooLarge

/-- An exponent, behind its letter. -/
def exponentPart (isPositive : Bool) (n : Nat) (start : Int) : Reader Float := do
  advance
  let isUp ← match ← peek? with
    | some '+' => do advance; pure true
    | some '-' => do advance; pure false
    | _ => pure true
  match ← peek? with
  | none => failHere .endInValue
  | some c =>
    if !c.isDigit then failAhead .badNumber
    else
      let digits := (← rest).takeWhile Char.isDigit
      let (e, left) := absorb (Number.twoTo 31 - 1) 0 digits
      if left.isEmpty then
        let _ ← takeWhile Char.isDigit
        scaled isPositive n (if isUp then start + e else start - e)
      else if n ≠ 0 && isUp then failAfter (digits.length - left.length + 1) .numberTooLarge
      else
        let _ ← takeWhile Char.isDigit
        return if isPositive then 0 else -0

/-- What may follow the digits of a number that is read in binary. -/
def afterDigits (isPositive : Bool) (n : Nat) (exponent : Int) : Reader Float := do
  match ← peek? with
  | some 'e' | some 'E' => exponentPart isPositive n exponent
  | _ => scaled isPositive n exponent

/-- The digits behind a point. -/
def fractionPart (isPositive : Bool) (n : Nat) (exponent : Int) : Reader Float := do
  advance
  let digits ← takeWhile Char.isDigit
  if digits.isEmpty then
    match ← peek? with
    | some _ => failAhead .badNumber
    | none => failAhead .endInValue
  else
    let (n, left) := absorb largestWord n digits
    afterDigits isPositive n (exponent - (digits.length - left.length : Nat))

/-- A whole number with a sign, if it fits into a word. There is no negative zero. -/
def wholeWord? (isPositive : Bool) (n : Nat) : Option Int :=
  if isPositive then some n
  else if n = 0 || n > Number.twoTo 63 then none
  else some (-n)

/-- A number, behind its sign. -/
def number (isPositive : Bool) : Reader Value := do
  match ← peek? with
  | none => failHere .endInValue
  | some c =>
    if !c.isDigit then failAhead .badNumber
    else
      let digits ← if c = '0' then do advance; pure ['0'] else takeWhile Char.isDigit
      let (n, left) := absorb largestWord 0 digits
      match ← peek? with
      | some '.' => .real <$> fractionPart isPositive n left.length
      | some 'e' | some 'E' => .real <$> exponentPart isPositive n left.length
      | some d =>
        if c = '0' && d.isDigit then failAhead .badNumber else whole n left
      | none => whole n left
where
  /-- A number without a point or an exponent. -/
  whole (n : Nat) (left : List Char) : Reader Value := do
    match left.isEmpty, wholeWord? isPositive n with
    | true, some i => return .whole i
    | true, none => return .real (-(UInt64.ofNat n).toFloat)
    | false, _ => .real <$> scaled isPositive n left.length

/-- Passes an exponent. -/
def skipExponent : Reader Unit := do
  advance
  match ← peek? with
  | some '+' | some '-' => advance
  | _ => pure ()
  match ← peek? with
  | none => failHere .badNumber
  | some c => if c.isDigit then discard (takeWhile Char.isDigit) else failAhead .badNumber

/-- Passes the digits behind a point. -/
def skipFraction : Reader Unit := do
  advance
  let digits ← takeWhile Char.isDigit
  if digits.isEmpty then failAhead .badNumber
  else match ← peek? with
    | some 'e' | some 'E' => skipExponent
    | _ => pure ()

/-- Passes a number, behind its sign. -/
def skipNumber : Reader Unit := do
  match ← peek? with
  | none => failHere .badNumber
  | some c =>
    if !c.isDigit then failAhead .badNumber
    else
      if c = '0' then advance else discard (takeWhile Char.isDigit)
      match ← peek? with
      | some '.' => skipFraction
      | some 'e' | some 'E' => skipExponent
      | some d => if c = '0' && d.isDigit then failAhead .badNumber else pure ()
      | none => pure ()

end Reader

end Scratchpad.Json
