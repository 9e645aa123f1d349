/-!
# Powers of two and of ten

The whole numbers that bound words and that decimal places stand for.

## Main definitions

* `Number.twoTo`: a power of two, which is how many values so many bits take.
* `Number.tenTo`: a power of ten.
-/

namespace Scratchpad.Number

/-- How many values so many bits take. -/
def twoTo (bits : Nat) : Nat := Nat.pow 2 bits

/-- What a digit with so many digits behind it counts. -/
def tenTo (places : Nat) : Nat := Nat.pow 10 places

end Scratchpad.Number
