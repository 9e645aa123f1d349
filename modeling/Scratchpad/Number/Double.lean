import Scratchpad.Number.Powers

/-!
# Numbers in binary

A finite number in binary is a whole number times a power of two. From these two parts follow its
shortest decimal, its remainder by another number, and its lowest 32 bits.

## Main definitions

* `Double.parts`: the whole number and the exponent.
* `Double.shortest`: the fewest decimal digits that read back as the same number.
* `Double.remainder`, `Double.lowBits`: exact operations on the parts.
-/

namespace Scratchpad.Double

open Number (twoTo tenTo)

/-- The whole number and the exponent of two of the size of a finite number. -/
def parts (x : Float) : Nat × Int :=
  let bits := x.toBits.toNat
  let exponent : Nat := bits / twoTo 52 % twoTo 11
  let fraction : Nat := bits % twoTo 52
  if exponent == 0 then (fraction, -1074) else (fraction + twoTo 52, (exponent : Int) - 1075)

/-- Whether a number has a sign in front. -/
def isNegative (x : Float) : Bool := x.toBits.toNat ≥ twoTo 63

/-- The decimal digits of a positive finite number, as few as read back, and the place of the decimal
point: the number is the digits behind a point, times ten to that place. -/
def shortest (x : Float) : List Char × Int :=
  let (m, q) := parts x
  -- the number is top / bottom, and the bounds of what reads back as it are (2 top ± gaps) / (2 bottom)
  let bottom := twoTo (-q).toNat * 4
  let unit := twoTo q.toNat * 4
  let top := m * unit
  let isEdge := m == twoTo 52 && q > -1074
  let below := top - (if isEdge then unit / 4 else unit / 2)
  let above := top + unit / 2
  let inclusive := m % 2 == 0
  let reads (num den : Nat) : Bool :=
    -- whether num / den lies within the bounds
    let v := num * bottom
    if inclusive then below * den ≤ v && v ≤ above * den else below * den < v && v < above * den
  -- the place of the decimal point
  let place : Int :=
    if bottom ≤ top then (Nat.toDigits 10 (top / bottom)).length
    else -(((List.range 400).find? fun j => bottom ≤ top * tenTo (j + 1)).getD 0 : Nat)
  let attempt (n : Nat) : Option (Nat × Int) :=
    -- the grid of n digits has steps of ten to the power place - n
    let e : Int := place - n
    let (num, den) := (top * tenTo (-e).toNat, bottom * tenTo e.toNat)
    let low := num / den
    let candidates := [low, low + 1].filter fun c => reads (c * tenTo e.toNat) (tenTo (-e).toNat)
    match candidates with
    | [a] => some (a, e)
    | [a, b] => some (if 2 * num ≤ (a + b) * den then a else b, e)
    | _ => none
  match ((List.range 18).drop 1).findSome? attempt with
  | none => (['0'], 1)
  | some (c, e) =>
    let digits := Nat.toDigits 10 c
    let kept := (digits.reverse.dropWhile (· == '0')).reverse
    (kept, e + digits.length)

/-- The remainder of a division that rounds toward zero, with the sign of the dividend. -/
def remainder (x y : Float) : Float :=
  if x.isNaN || y.isNaN || x.isInf || y == 0 then 0 / 0
  else if y.isInf || x == 0 then x
  else
    let (mx, qx) := parts x
    let (my, qy) := parts y
    let q := min qx qy
    let r := mx * twoTo (qx - q).toNat % (my * twoTo (qy - q).toNat)
    let size := (Float.ofNat r).scaleB q
    if isNegative x then -size else size

/-- The lowest 32 bits of the whole part of a number, in two's complement. -/
def lowBits (x : Float) : Nat :=
  if x.isNaN || x.isInf then 0
  else
    let (m, q) := parts x
    let whole := (if q ≥ 0 then m * twoTo q.toNat else m / twoTo (-q).toNat) % UInt32.size
    if isNegative x then (UInt32.size - whole) % UInt32.size else whole

/-- The number that 32 bits stand for with a sign. -/
def ofSigned (n : Nat) : Float :=
  let n := n % UInt32.size
  if n ≥ twoTo 31 then -(Float.ofNat (UInt32.size - n)) else Float.ofNat n

end Scratchpad.Double
