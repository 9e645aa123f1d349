import Scratchpad.Number.Double
import Scratchpad.Text.Quoted

/-!
# Values

The values that a text can hold. Whole numbers that fit into a word are kept apart from all others,
which are kept in binary.

## Main definitions

* `Value`: the values.
* `Value.description`: how a value is called when another one was expected.
-/

namespace Scratchpad.Json

/-- What a text can hold. -/
inductive Value where
  | null
  | boolean (b : Bool)
  /-- A whole number that fits into a word of 64 bits, signed if it is negative. -/
  | whole (n : Int)
  | real (x : Float)
  | text (s : String)
  | list (items : List Value)
  | object (fields : List (String × Value))
deriving Inhabited

/-- The text of a number in binary. Up to sixteen digits stand before the point and up to four zeros
behind it. -/
def realText (x : Float) : String :=
  let sign := if Double.isNegative x then "-" else ""
  if x == 0 then sign ++ "0.0"
  else
    let (digits, place) := Double.shortest x
    let n := digits.length
    let zeros (k : Nat) := List.replicate k '0'
    let body : List Char :=
      if n ≤ place && place ≤ 16 then digits ++ zeros (place - n).toNat ++ ['.', '0']
      else if 0 < place && place ≤ 16 then digits.take place.toNat ++ ['.'] ++ digits.drop place.toNat
      else if -5 < place && place ≤ 0 then ['0', '.'] ++ zeros (-place).toNat ++ digits
      else
        let e := place - 1
        let mantissa := if n = 1 then digits else digits.take 1 ++ ['.'] ++ digits.drop 1
        mantissa ++ (if e < 0 then ['e', '-'] else ['e', '+']) ++ Nat.toDigits 10 e.natAbs
    sign ++ String.ofList body

/-- How a value is called when another one was expected. -/
def Value.description : Value → String
  | null => "null"
  | boolean b => "boolean \x60" ++ (if b then "true" else "false") ++ "\x60"
  | whole n => "integer \x60" ++ toString n ++ "\x60"
  | real x => "floating point \x60" ++ realText x ++ "\x60"
  | text s => "string " ++ Text.quoted s
  | list _ => "sequence"
  | object _ => "map"

end Scratchpad.Json
