import Scratchpad.TypeScript.Complaint
import Scratchpad.TypeScript.Erasure
import Scratchpad.TypeScript.Printer

/-!
# Compilation

A source is read as a module, rid of its types and printed. What cannot be read without a flaw is not
compiled at all.

## Main definitions

* `CompileFailure`, `CompileFailure.message`: why a source has no code, and what the user is told.
* `compile`: the code of a source, or what is wrong with it.
* `Compiler`: anything that makes code of sources.

## Main statements

* `compile_of_error`, `compile_of_ok`: what a source is compiled to, by what is read.
* `exists_of_compile`: what has code has been read without a flaw.
-/

namespace Scratchpad

open TypeScript

/-- Why a source has no code. -/
inductive CompileFailure where
  /-- The source cannot be read. -/
  | parse (complaint : Complaint)
  /-- The code cannot be printed. -/
  | emit (reason : String)
  /-- What was printed is no text. -/
  | encoding (reason : String)
deriving DecidableEq, Repr

/-- What the user is told. -/
def CompileFailure.message : CompileFailure → String
  | .parse complaint => complaint.message
  | .emit reason => "Emit error: " ++ reason
  | .encoding reason => "UTF-8 error: " ++ reason

/-- Makes code of sources. -/
abbrev Compiler := String → Except CompileFailure String

/-- The code of a source, or what is wrong with it. -/
def compile : Compiler := fun source =>
  let cs := Text.withoutEncodingMark source.toList
  match Document.parse true (String.ofList cs) with
  | .error flaw => .error (.parse (.ofFlaw cs flaw))
  | .ok document => .ok document.withoutTypes.print

section

variable {source : String} {cs : List Char} (hcs : Text.withoutEncodingMark source.toList = cs)

include hcs

theorem compile_of_error {flaw : Flaw} (h : Document.parse true (String.ofList cs) = .error flaw) :
    compile source = .error (.parse (.ofFlaw cs flaw)) := by
  delta compile
  dsimp only
  rw [hcs, h]

theorem compile_of_ok {document : Document} (h : Document.parse true (String.ofList cs) = .ok document) :
    compile source = .ok document.withoutTypes.print := by
  delta compile
  dsimp only
  rw [hcs, h]

/-- What has code has been read without a flaw. -/
theorem exists_of_compile {js : String} (h : compile source = .ok js) :
    ∃ document, Document.parse true (String.ofList cs) = .ok document ∧ js = document.withoutTypes.print := by
  cases hparse : Document.parse true (String.ofList cs) with
  | error flaw =>
    rw [compile_of_error hcs hparse] at h
    cases h
  | ok document =>
    rw [compile_of_ok hcs hparse] at h
    exact ⟨document, rfl, (Except.ok.inj h).symm⟩

end

end Scratchpad
