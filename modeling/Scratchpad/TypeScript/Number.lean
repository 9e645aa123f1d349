import Scratchpad.Number.Double

/-!
# Numbers in code

How a number is read from a constant of the source and how it is written again. Positional notation ends
at twenty-one digits before the point and six zeros behind it.

## Main definitions

* `numberOfConstant`: the value of a constant.
* `numberText`: the text of a number.
-/

namespace Scratchpad.TypeScript

/-- The value of a digit in any base. -/
def digitValue (c : Char) : Nat :=
  if c.isDigit then c.toNat - '0'.toNat
  else if 'a' ≤ c && c ≤ 'f' then c.toNat - 'a'.toNat + 10
  else c.toNat - 'A'.toNat + 10

/-- The value of digits in a base. -/
def digitsValue (base : Nat) (cs : List Char) : Nat :=
  cs.foldl (fun n c => n * base + digitValue c) 0

/-- The value of a decimal constant without separators. -/
def decimalValue (cs : List Char) : Float :=
  let mantissa := cs.takeWhile fun c => c != 'e' && c != 'E'
  let exponent := (cs.drop mantissa.length).drop 1
  let whole := mantissa.takeWhile (· != '.')
  let fraction := (mantissa.drop whole.length).drop 1
  let scale : Int := match exponent with
    | '-' :: ds => -(digitsValue 10 ds : Int)
    | '+' :: ds => digitsValue 10 ds
    | ds => digitsValue 10 ds
  let e := scale - fraction.length
  Float.ofScientific (digitsValue 10 (whole ++ fraction)) (e < 0) e.natAbs

/-- The value of a constant of the source. -/
def numberOfConstant (raw : String) : Float :=
  match raw.toList.filter (· != '_') with
  | '0' :: b :: ds =>
    if b == 'x' || b == 'X' then Float.ofNat (digitsValue 16 ds)
    else if b == 'o' || b == 'O' then Float.ofNat (digitsValue 8 ds)
    else if b == 'b' || b == 'B' then Float.ofNat (digitsValue 2 ds)
    else decimalValue ('0' :: b :: ds)
  | cs => decimalValue cs

/-- The text of a positive number with the given digits and place of the point. -/
def positionalText (digits : List Char) (place : Int) : List Char :=
  let n := digits.length
  let zeros (k : Nat) := List.replicate k '0'
  if n ≤ place && place ≤ 21 then digits ++ zeros (place - n).toNat
  else if 0 < place && place ≤ 21 then
    digits.take place.toNat ++ ['.'] ++ digits.drop place.toNat
  else if -6 < place && place ≤ 0 then ['0', '.'] ++ zeros (-place).toNat ++ digits
  else
    let e := place - 1
    let power := (if e < 0 then "e-" else "e+").toList ++ Nat.toDigits 10 e.natAbs
    match digits with
    | [d] => d :: power
    | d :: ds => d :: '.' :: ds ++ power
    | [] => power

/-- The text of a number. -/
def numberText (x : Float) : String :=
  if x.isNaN then "NaN"
  else if x == 0 then "0"
  else
    let sign := if Double.isNegative x then "-" else ""
    if x.isInf then sign ++ "Infinity"
    else
      let (digits, place) := Double.shortest x.abs
      sign ++ String.ofList (positionalText digits place)

end Scratchpad.TypeScript
