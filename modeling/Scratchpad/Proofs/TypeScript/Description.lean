import Mathlib.Data.List.Basic
import Mathlib.Data.List.Find
import Scratchpad.TypeScript.Complaint

/-!
# What a user is told of a fault

The description of a flaw is found in a record that begins with its position. It is found behind the position, so
a fault is described alike wherever it is.

## Main statements

* `description_diagnostic`: what a user is told of a fault does not depend on where it is.
-/

namespace Scratchpad.TypeScript

open Scratchpad.Text

theorem occursIn_append {c : Char} {part xs : List Char} (h : c ∉ xs) (ys : List Char) :
    occursIn (c :: part) (xs ++ ys) = occursIn (c :: part) ys := by
  induction xs with
  | nil => rfl
  | cons x xs ih =>
    obtain ⟨hx, hxs⟩ := not_or.mp (List.mem_cons.not.mp h)
    have hfirst : (c :: part).isPrefixOf (x :: (xs ++ ys)) = false := by
      simp [List.isPrefixOf, hx]
    rw [List.cons_append, occursIn, hfirst, ih hxs, Bool.false_or]

theorem after?_append {c : Char} {part xs : List Char} (h : c ∉ xs) (ys : List Char) :
    after? (c :: part) (xs ++ ys) = after? (c :: part) ys := by
  induction xs with
  | nil => rfl
  | cons x xs ih =>
    obtain ⟨hx, hxs⟩ := not_or.mp (List.mem_cons.not.mp h)
    have hfirst : (c :: part).isPrefixOf (x :: (xs ++ ys)) = false := by
      simp [List.isPrefixOf, hx]
    rw [List.cons_append, after?, hfirst, if_neg Bool.false_ne_true, ih hxs]

theorem notMem_toDigits (n : Nat) {c : Char} (h : c.isDigit = false) : c ∉ (toString n).toList := by
  intro hc
  have hmem : c ∈ Nat.toDigits 10 n := by simpa using hc
  have hdigit := Nat.isDigit_of_mem_toDigits (by omega) (by omega) hmem
  rw [h] at hdigit
  cases hdigit

/-- What a diagnostic says of the fault comes behind the position. -/
theorem toList_diagnostic (pos : Nat) (fault : Fault) :
    (Flaw.diagnostic ⟨pos, fault⟩).toList = "Error \x7b error: (".toList ++ ((toString pos).toList ++
      (", " ++ fault.diagnostic ++ ") \x7d").toList) := by
  unfold Flaw.diagnostic
  generalize fault.diagnostic = cause
  generalize toString pos = place
  simp only [String.toList_append]
  simp only [List.append_assoc]

/-- A known code is found behind the position, if at all. -/
theorem occursIn_behind {code : String × String} (h : code ∈ knownCodes) (pos : Nat) (rest : List Char) :
    occursIn code.1.toList ("Error \x7b error: (".toList ++ ((toString pos).toList ++ rest)) =
      occursIn code.1.toList rest := by
  have hcodes : ∀ code ∈ knownCodes, code.1.toList.head? = some 'T' ∨ code.1 = "Eof" := by decide
  rcases hcodes code h with hhead | heof
  · obtain ⟨part, hpart⟩ : ∃ part, code.1.toList = 'T' :: part := ⟨_, List.eq_cons_of_mem_head? hhead⟩
    rw [hpart, occursIn_append (by decide), occursIn_append (notMem_toDigits pos rfl)]
  · have hpart : "Eof".toList = 'E' :: "of".toList := rfl
    have hword : "Error \x7b error: (".toList = ['E'] ++ "rror \x7b error: (".toList := rfl
    have hsecond : ∀ rest, occursIn ('E' :: "of".toList) (['E'] ++ ("rror \x7b error: (".toList ++ rest)) =
        occursIn ('E' :: "of".toList) ("rror \x7b error: (".toList ++ rest) := fun rest => rfl
    rw [heof, hpart, hword, List.append_assoc, hsecond, occursIn_append (by decide),
      occursIn_append (notMem_toDigits pos rfl)]

/-- **What the user is told of a fault does not depend on where it is.** -/
theorem description_diagnostic (pos pos' : Nat) (fault : Fault) :
    description (Flaw.diagnostic ⟨pos, fault⟩) = description (Flaw.diagnostic ⟨pos', fault⟩) := by
  have hown : ∀ pos, ownDescription? (Flaw.diagnostic ⟨pos, fault⟩).toList =
      ownDescription? (", " ++ fault.diagnostic ++ ") \x7d").toList := by
    intro pos
    have hpart : "message:".toList = 'm' :: "essage:".toList := rfl
    rw [toList_diagnostic, ownDescription?, ownDescription?, hpart, after?_append (by decide),
      after?_append (notMem_toDigits pos rfl)]
  have hknown : ∀ pos, (knownCodes.find? fun code =>
        occursIn code.1.toList (Flaw.diagnostic ⟨pos, fault⟩).toList) =
      knownCodes.find? fun code =>
        occursIn code.1.toList (", " ++ fault.diagnostic ++ ") \x7d").toList := by
    intro pos
    refine List.find?_congr fun code hcode => ?_
    rw [toList_diagnostic]
    exact occursIn_behind hcode pos _
  simp only [description, hknown, hown]

end Scratchpad.TypeScript
