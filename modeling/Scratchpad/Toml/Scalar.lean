import Scratchpad.Toml.Quoted
import Scratchpad.Toml.Value

/-!
# Scalars

What a scalar stands for: a string, or, without quotes, a number, a truth value, a date or a time. How a
scalar without quotes begins decides what it is taken for, and so which flaw is found in it.

## Main definitions

* `Bare`: a scalar without quotes, and the part of it that is being read.
* `scalarOf`: the value of a scalar.
-/

namespace Scratchpad.Toml

/-- The base of a radix. -/
def Radix.base : Radix → Nat
  | binary => 2
  | octal => 8
  | decimal => 10
  | hexadecimal => 16

/-- Whether a character is a digit of a radix. -/
def Radix.isDigit (r : Radix) (c : Char) : Bool := (hexValue? c).any (· < r.base)

/-- The number that digits stand for, in which underscores separate groups. -/
def Radix.number (r : Radix) (cs : List Char) : Nat :=
  (cs.filterMap hexValue?).foldl (fun n d => n * r.base + d) 0

/-- A scalar without quotes and the part of it that is being read. -/
structure Bare where
  token : Token
  /-- Where the part begins. -/
  start : Nat
  part : List Char
deriving DecidableEq, Inhabited, Repr

namespace Bare

/-- All of a token. -/
def ofToken (t : Token) : Bare := ⟨t, t.start, t.text⟩

/-- What is left behind some characters of one byte. -/
def drop (b : Bare) (n : Nat) : Bare := { b with start := b.start + n, part := b.part.drop n }

variable {α : Type}

/-- There is a flaw in the scalar. -/
def failWhole (b : Bare) (flaw : Flaw) : Except Misfit α := .error ⟨flaw, b.token.span⟩

/-- There is a flaw in the next characters of one byte. -/
def failHere (b : Bare) (width : Nat) (flaw : Flaw) : Except Misfit α :=
  .error ⟨flaw, ⟨b.start, b.start + width⟩⟩

/-- Whether a character is an underscore. -/
def isSeparator (c : Char) : Bool := c == '_'

/-- The place of the first underscore that does not stand between two digits, given the character before. -/
def stray? (isDigit : Char → Bool) : (before : Option Char) → (place : Nat) → List Char → Option Nat
  | _, _, [] => none
  | before, place, c :: cs =>
    if isSeparator c && !(before.any isDigit && cs.head?.any isDigit) then some place
    else stray? isDigit (some c) (place + c.utf8Size) cs

/-- Underscores may only stand between digits. One at either end of a number counts before all others. -/
def checkSeparators (b : Bare) (isDigit : Char → Bool) : Except Misfit Unit :=
  if b.part.head?.any isSeparator then b.failHere 1 .separatorMisplaced
  else if 1 < b.part.length && b.part.getLast?.any isSeparator then
    (b.drop (b.part.length - 1)).failHere 1 .separatorMisplaced
  else
    match stray? isDigit none b.start b.part with
    | some place => .error ⟨.separatorMisplaced, ⟨place, place + 1⟩⟩
    | none => .ok ()

/-! ## Whole numbers -/

/-- A whole number, unless it is beyond all words. -/
def wholeValue (n : Int) : Value :=
  if -(Number.twoTo 127 : Int) ≤ n ∧ n < Number.twoTo 128 then .whole n else .tooLarge false

/-- Whether a scalar has a minus sign. -/
def isNegative (b : Bare) : Bool := b.token.text.head? == some '-'

/-- A whole number in decimal, behind its sign. -/
def decimal (b : Bare) : Except Misfit Value := do
  if b.part.head? = some '0' then b.failHere 1 .leadingZero
  (ofToken b.token).checkSeparators Char.isDigit
  let n := Radix.decimal.number b.part
  return wholeValue (if b.isNegative then -n else n)

/-- The digits behind the mark of a radix. -/
def radixDigits (b : Bare) (radix : Radix) : Except Misfit Value := do
  if b.part.head?.any fun c => c == '+' || c == '-' then b.failHere 1 .signBehindRadix
  match Reader.firstOutside? (fun c => radix.isDigit c || isSeparator c) b.start b.part with
  | some place => failAt (.foreignDigit radix) place
  | none =>
    b.checkSeparators radix.isDigit
    return if b.part.isEmpty then .tooLarge false else wholeValue (radix.number b.part)

/-- A whole number with the mark of a radix. -/
def radixed (b : Bare) (isSigned isCapital : Bool) (mark : String) (radix : Radix) :
    Except Misfit Value := do
  if isSigned then (ofToken b.token).failHere 1 .signBeforeRadix
  if isCapital then b.failHere 2 (.radixCapital mark)
  (b.drop 2).radixDigits radix

/-! ## Numbers in binary -/

/-- The number that is a whole number times a power of ten. -/
def realValue (isNegative : Bool) (m : Nat) (exponent : Int) : Value :=
  let digits : Int := (Nat.toDigits 10 m).length
  let size : Float :=
    if m = 0 ∨ exponent + digits < -400 then 0
    else if 400 < exponent + digits then 1 / 0
    else Float.ofScientific m (exponent < 0) exponent.natAbs
  if size.isInf then .tooLarge true else .real (if isNegative then -size else size)

/-- Digits and underscores of a part of a number, and what follows them. -/
def digitsOf (b : Bare) (part : NumberPart) : Except Misfit (List Char × Bare) :=
  let run := b.part.takeWhile fun c => c.isDigit || isSeparator c
  let digits := run.filter Char.isDigit
  if digits.isEmpty then b.failHere 0 (.digitsMissing part)
  else if part = .mantissa ∧ 1 < digits.length ∧ b.part.head? = some '0' then b.failHere 1 .leadingZero
  else .ok (digits, b.drop run.length)

/-- A number with a fraction or an exponent, behind its sign. -/
def real (b : Bare) : Except Misfit Value := do
  let (whole, b) ← b.digitsOf .mantissa
  let (fraction, b) ← if b.part.head? = some '.' then (b.drop 1).digitsOf .fraction else pure ([], b)
  let (isDown, exponent, b) ←
    match b.part with
    | 'e' :: c :: _ | 'E' :: c :: _ =>
      let (ds, rest) ← (b.drop (if c = '+' ∨ c = '-' then 2 else 1)).digitsOf .exponent
      pure (c == '-', ds, rest)
    | ['e'] | ['E'] => (b.drop 1).failHere 0 (.digitsMissing .exponent)
    | _ => pure (false, [], b)
  if !b.part.isEmpty then throw ⟨.numberTail, ⟨b.start, b.token.span.stop⟩⟩
  (ofToken b.token).checkSeparators Char.isDigit
  let e : Int := Number.natOfDigits exponent
  return realValue b.isNegative (Number.natOfDigits (whole ++ fraction))
    ((if isDown then -e else e) - fraction.length)

/-! ## All scalars -/

/-- A date or a time, which takes up the whole scalar. -/
def moment (b : Bare) : Except Misfit Value :=
  match Moment.ofText b.token.text with
  | .ok m => .ok (.moment m)
  | .error flaw => b.failWhole flaw

/-- A scalar that begins with a digit, which may be behind a sign. -/
def digitsFirst (b : Bare) : Except Misfit Value :=
  let rest := b.part.dropWhile fun c => c.isDigit || isSeparator c
  match rest with
  | [] => b.decimal
  | c :: _ =>
    if c = '-' ∨ c = ':' then b.moment
    else if rest.contains ' ' then b.failWhole .unquoted
    else if rest.any fun d => d == '.' || d == 'e' || d == 'E' then b.real
    else b.failWhole .unquoted

/-- A scalar that begins with a zero, which may be behind a sign. -/
def zeroFirst (b : Bare) (isSigned : Bool) : Except Misfit Value :=
  match b.part with
  | ['0'] => .ok (.whole 0)
  | _ :: 'x' :: _ => b.radixed isSigned false "0x" .hexadecimal
  | _ :: 'X' :: _ => b.radixed isSigned true "0x" .hexadecimal
  | _ :: 'o' :: _ => b.radixed isSigned false "0o" .octal
  | _ :: 'O' :: _ => b.radixed isSigned true "0o" .octal
  | _ :: 'b' :: _ => b.radixed isSigned false "0b" .binary
  | _ :: 'B' :: _ => b.radixed isSigned true "0b" .binary
  | _ :: 'd' :: _ | _ :: 'D' :: _ =>
    if isSigned then (ofToken b.token).failHere 1 .signBeforeRadix else b.failHere 2 .radixRedundant
  | _ => b.digitsFirst

/-- A scalar that has to be a word. -/
def word (b : Bare) (isNumber : Bool) (name : String) (v : Value) : Except Misfit Value :=
  if b.part = name.toList then .ok v
  else if b.part.contains ' ' then b.failWhole .unquoted
  else b.failWhole (.wordMisspelt isNumber name)

/-- The word for a number that may have a sign, behind that sign. -/
def signedWord (b : Bare) (name : String) (x : Float) : Except Misfit Value :=
  if b.part = name.toList then .ok (.real (if b.isNegative then -x else x))
  else b.failHere (byteSize b.part) (.wordMisspelt true name)

/-- What a number beyond all others and what no number at all are. -/
def infinity : Float := 1 / 0

def notNumber : Float := 0 / 0

/-- A scalar behind its sign. -/
def signed (b : Bare) : Except Misfit Value :=
  match b.part with
  | '+' :: _ | '-' :: _ => b.failHere 1 .signTwice
  | '0' :: _ => b.zeroFirst true
  | '.' :: _ => b.real
  | 'i' :: _ | 'I' :: _ => b.signedWord "inf" infinity
  | 'n' :: _ | 'N' :: _ => b.signedWord "nan" notNumber
  | c :: _ => if c.isDigit || isSeparator c then b.digitsFirst else b.failWhole .unquoted
  | [] => b.failWhole .unquoted

/-- The value of a scalar without quotes. -/
def value (b : Bare) : Except Misfit Value :=
  match b.part with
  | '+' :: _ | '-' :: _ => (b.drop 1).signed
  | '0' :: _ => b.zeroFirst false
  | '.' :: _ => b.real
  | 't' :: _ | 'T' :: _ => b.word false "true" (.boolean true)
  | 'f' :: _ | 'F' :: _ => b.word false "false" (.boolean false)
  | 'i' :: _ | 'I' :: _ => b.word true "inf" (.real infinity)
  | 'n' :: _ | 'N' :: _ => b.word true "nan" (.real notNumber)
  | c :: _ => if c.isDigit || isSeparator c then b.digitsFirst else b.failWhole .unquoted
  | [] => b.failWhole .unquoted

end Bare

/-- The value of a scalar. -/
def scalarOf (t : Token) : Except Misfit Value :=
  match t.kind with
  | .string quoting => .text <$> textOf quoting t
  | _ => (Bare.ofToken t).value

end Scratchpad.Toml
