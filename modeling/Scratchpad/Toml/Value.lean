import Scratchpad.Number.Double
import Scratchpad.Text.Quoted
import Scratchpad.Toml.Moment

/-!
# Values of documents

What a document can hold. A table knows how it came to be, since that decides whether it may be extended
later, and keeps its entries in the order of their keys.

## Main definitions

* `Origin`, `Value`: tables and other values, each with the stretch where it stands.
* `Value.type`: how the type of a value is called.
* `Value.description`: how a value is called when another one was expected.
-/

namespace Scratchpad.Toml

/-- How a table came to be. -/
inductive Origin where
  /-- The heading of another table goes through it. -/
  | implied
  /-- A dotted key goes through it. -/
  | dotted
  /-- It has a heading of its own. -/
  | headed
  /-- It is written as a value. -/
  | inline
deriving DecidableEq, Inhabited, Repr

/-- What a document can hold. -/
inductive Value where
  | text (s : String)
  | whole (n : Int)
  | real (x : Float)
  /-- A number that cannot be held, or that has no digits. -/
  | tooLarge (isReal : Bool)
  | boolean (b : Bool)
  | moment (m : Moment)
  /-- A list, written as a value or made of the many tables of one heading. -/
  | list (ofMany : Bool) (items : List (Span × Value))
  | table (origin : Origin) (entries : List (String × Span × Value))
deriving Inhabited

/-- What a table holds. -/
abbrev Entries := List (String × Span × Value)

namespace Value

/-- How the type of a value is called. -/
def type : Value → String
  | text _ => "string"
  | whole _ | tooLarge false => "integer"
  | real _ | tooLarge true => "float"
  | boolean _ => "boolean"
  | moment _ => "datetime"
  | list .. => "array"
  | table .inline _ => "inline table"
  | table .. => "table"

/-- The text of a number in binary. All digits are written out, and a point is always there. -/
def realText (x : Float) : String :=
  if x.isNaN then "NaN"
  else
    let sign := if Double.isNegative x then "-" else ""
    if x.isInf then sign ++ "inf"
    else if x == 0 then sign ++ "0.0"
    else
      let (digits, place) := Double.shortest x
      let n := digits.length
      let zeros (k : Nat) := List.replicate k '0'
      let body : List Char :=
        if n ≤ place then digits ++ zeros (place - n).toNat ++ ['.', '0']
        else if 0 < place then digits.take place.toNat ++ ['.'] ++ digits.drop place.toNat
        else ['0', '.'] ++ zeros (-place).toNat ++ digits
      sign ++ String.ofList body

/-- How a whole number is called. Beyond the words of 64 bits it is told which larger word it fits. -/
def wholeDescription (n : Int) : String :=
  let size :=
    if Int64.minValue.toInt ≤ n ∧ n < UInt64.size then ""
    else if n < Number.twoTo 127 then " as i128"
    else " as u128"
  "integer " ++ inAccents (toString n) ++ size

/-- How a value is called when another one was expected. -/
def description : Value → String
  | text s => "string " ++ Text.quoted s
  | whole n => wholeDescription n
  | real x => "floating point " ++ inAccents (realText x)
  | tooLarge _ => "number"
  | boolean b => "boolean " ++ inAccents (if b then "true" else "false")
  | moment _ | table .. => "map"
  | list .. => "sequence"

end Value

end Scratchpad.Toml
