/-!
# Decimal digits

The number that decimal digits stand for, most significant first.

## Main definitions

* `natOfDigits`: the number of a list of digits.
-/

namespace Scratchpad.Number

/-- The value of a decimal digit. -/
def digitValue (c : Char) : Nat := c.toNat - '0'.toNat

/-- The number that digits stand for. -/
def natOfDigits (ds : List Char) : Nat :=
  ds.foldl (fun n d => n * 10 + digitValue d) 0

@[simp] theorem natOfDigits_nil : natOfDigits [] = 0 := rfl

/-- A digit at the end counts once, and everything before it ten times. -/
@[simp] theorem natOfDigits_append_singleton (ds : List Char) (d : Char) :
    natOfDigits (ds ++ [d]) = natOfDigits ds * 10 + digitValue d := by
  simp [natOfDigits]

/-- The digits that a number is written with stand for it. -/
@[simp] theorem natOfDigits_toDigits (n : Nat) : natOfDigits (Nat.toDigits 10 n) = n := by
  have hfold : natOfDigits (Nat.toDigits 10 n) = Nat.ofDigitChars 10 (Nat.toDigits 10 n) 0 := by
    simp only [natOfDigits, digitValue, Nat.ofDigitChars_eq_foldl, Nat.mul_comm]
  rw [hfold, Nat.ofDigitChars_ten_toDigits]

end Scratchpad.Number
