import Mathlib.Data.List.Basic
import Scratchpad.Number.Digits

/-!
# Written numbers

A number is written without zeros in front, so that only zero begins with one, and a negative number has a minus
sign in front of its size.

## Main statements

* `eq_zero_of_head?_toDigits`: only zero begins with a zero.
* `exists_cons_toDigits`: a number has a first digit.
* `newline_notMem_toString`: a number is a single line.
* `toList_toString_neg`: how a negative number is written.
-/

namespace Scratchpad.Number

theorem isDigit_of_mem_toDigits {n : Nat} {c : Char} (h : c ∈ Nat.toDigits 10 n) : c.isDigit = true :=
  Nat.isDigit_of_mem_toDigits (by omega) (by omega) h

theorem ne_of_isDigit {c d : Char} (hc : c.isDigit = true) (hd : d.isDigit = false) : c ≠ d := by
  rintro rfl
  exact Bool.false_ne_true (hd.symm.trans hc)

/-- Only zero begins with a zero. -/
theorem eq_zero_of_head?_toDigits {n : Nat} (h : (Nat.toDigits 10 n).head? = some '0') : n = 0 := by
  induction n using Nat.strongRecOn with
  | _ n ih =>
    rw [Nat.toDigits_eq_if (by omega)] at h
    split at h
    · have hdigit : ∀ n < 10, some (Nat.digitChar n) = some '0' → n = 0 := by decide
      exact hdigit n ‹_› h
    · rw [List.head?_append_of_ne_nil _ Nat.toDigits_ne_nil] at h
      have hzero := ih (n / 10) (by omega) h
      omega

theorem exists_cons_toDigits (n : Nat) : ∃ d ds, Nat.toDigits 10 n = d :: ds ∧ d.isDigit = true := by
  obtain ⟨d, ds, hds⟩ := List.exists_cons_of_ne_nil (Nat.toDigits_ne_nil (n := n) (b := 10))
  exact ⟨d, ds, hds, isDigit_of_mem_toDigits (n := n) (by simp [hds])⟩

theorem toList_toString_neg {n : Nat} (h : 0 < n) : (toString (-(n : Int))).toList = '-' :: Nat.toDigits 10 n := by
  obtain ⟨m, rfl⟩ := Nat.exists_eq_succ_of_ne_zero (Nat.ne_of_gt h)
  have hneg : (-(m.succ : Int)) = Int.negSucc m := rfl
  rw [hneg]
  change ("-" ++ Nat.repr (m + 1)).toList = _
  simp

theorem newline_notMem_toString (i : Int) : '\n' ∉ (toString i).toList := by
  have hdigits (n : Nat) : '\n' ∉ Nat.toDigits 10 n := fun h => absurd (isDigit_of_mem_toDigits h) (by decide)
  rcases Int.lt_or_le i 0 with hneg | hpos
  · obtain ⟨n, rfl⟩ := Int.exists_eq_neg_ofNat (Int.le_of_lt hneg)
    rw [toList_toString_neg (by omega : 0 < n)]
    simp [hdigits]
  · obtain ⟨n, rfl⟩ := Int.eq_ofNat_of_zero_le hpos
    change '\n' ∉ (toString n).toList
    simp [hdigits]

end Scratchpad.Number
