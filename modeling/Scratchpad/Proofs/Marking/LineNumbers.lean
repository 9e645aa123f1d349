import Scratchpad.Proofs.Marking.Calls
import Scratchpad.Proofs.TypeScript.Excerpt

/-!
# Two ways to number lines

A marker names the line on which a call begins, and what is told of a flaw names the line on which the flaw is. The
lines of markers end as those of the language do: with a line feed, a carriage return, or both in that order. The
lines of flaws end with a line feed only. Both numbers are the same up to the first carriage return that ends a line
by itself. From there on the number of the marker is ahead by one for each of these.

## Main definitions

* `loneReturns`: how many carriage returns end a line by themselves before a position.

## Main statements

* `sourceLineAt_eq_lineAt_add`: one number by the other.
* `Marking.marker_line_eq`: the line of a marker against the line that is told of a flaw at the same position.
* `Marking.lone_return_is_not_counted`: they are not always the same.
-/

namespace Scratchpad

open Text TypeScript

namespace Text

/-- How many carriage returns before a position are followed by no line feed, and so end a line by themselves. -/
def loneReturns (cs : List Char) (pos : Nat) : Nat :=
  (List.range pos).countP fun k => cs[k]? = some '\r' ∧ cs[k + 1]? ≠ some '\n'

theorem loneReturns_cons (c : Char) (cs : List Char) (pos : Nat) :
    loneReturns (c :: cs) (pos + 1) =
      (if c = '\r' ∧ cs.head? ≠ some '\n' then 1 else 0) + loneReturns cs pos := by
  rw [loneReturns, List.range_succ_eq_map, List.countP_cons, List.countP_map, Nat.add_comm, loneReturns,
    List.head?_eq_getElem?]
  simp [Function.comp_def]

/-- **The two numbers of a line** differ by the carriage returns that end a line by themselves. -/
theorem sourceLineAt_eq_lineAt_add (cs : List Char) (pos : Nat) :
    sourceLineAt cs pos = lineAt cs pos + loneReturns cs pos := by
  induction cs generalizing pos with
  | nil => simp [sourceLineAt, lineAt, loneReturns]
  | cons c cs ih =>
    cases pos with
    | zero => simp [lineAt, loneReturns]
    | succ pos =>
      have hline : lineAt (c :: cs) (pos + 1) = lineAt cs pos + if c = '\n' then 1 else 0 := by
        simp [lineAt, List.count_cons, Nat.add_assoc]
      rw [sourceLineAt, ih, hline, loneReturns_cons]
      by_cases hfeed : c = '\n'
      · subst hfeed
        have hends : endsLine '\n' cs = true := rfl
        have hother : ¬ ('\n' = '\r' ∧ cs.head? ≠ some '\n') := fun h => absurd h.1 (by decide)
        rw [if_pos hends, if_pos rfl, if_neg hother]
        omega
      · have hends : endsLine c cs = true ↔ c = '\r' ∧ cs.head? ≠ some '\n' := by simp [endsLine, hfeed]
        simp only [hends, if_neg hfeed]
        omega

theorem loneReturns_eq_zero_iff {cs : List Char} {pos : Nat} :
    loneReturns cs pos = 0 ↔ ∀ k < pos, cs[k]? = some '\r' → cs[k + 1]? = some '\n' := by
  simp [loneReturns, List.countP_eq_zero]

end Text

namespace Marking

open Insertion

theorem ofNode?_of_consoleCall {call first : Node} {pos : Nat} (h : ConsoleCall call pos first) (cs : List Char)
    (skipped : Nat) :
    ofNode? cs skipped call = some ⟨byteLength (cs.take (argumentStart first)) + skipped, sourceLineAt cs pos⟩ :=
  ofNode?_eq_some_iff.mpr ⟨pos, first, h, rfl⟩

/-- What a call in the trees of a source asks for is among its markers. -/
theorem mem_lines_ofSource {source : String} {document : Document}
    (h : Document.parse false (String.ofList (withoutEncodingMark source.toList)) = .ok document) {call : Node}
    (hcall : call ∈ document.items.flatMap Node.subterms) {i : Insertion}
    (hi : ofNode? (withoutEncodingMark source.toList) (encodingMarkLength source.toList) call = some i) :
    i.line ∈ (ofSource source).lines := by
  rw [ofSource_of_ok h, ofInsertions, List.mem_mergeSort]
  exact List.mem_map_of_mem (List.mem_filterMap.mpr ⟨call, hcall, hi⟩)

/-- **The line of a marker is that of a flaw at the same position and the carriage returns that end a line by
themselves before it.** Whatever a source is and wherever a position lies in it: a span that begins there is told
with the line that line feeds end, and so is a flaw that the source has there. The marker of a console call that
begins there, which is one of the markers of the source if the call is in its trees, names the line that is ahead by
one for each carriage return before the position that no line feed follows. Both are the same if and only if there
is none. -/
theorem marker_line_eq (source : String) (pos : Nat) :
    let cs := withoutEncodingMark source.toList
    let told := 1 + (cs.take pos).count '\n'
    (∀ fileStart diagnostic, ∃ complaint,
      Complaint.ofSpan? source fileStart (fileStart + byteLength (cs.take pos)) diagnostic = some complaint ∧
      complaint.line = told) ∧
    (∀ flaw, Document.parse true (String.ofList cs) = .error flaw → flaw.pos = pos →
      ∃ complaint, compile source = .error (.parse complaint) ∧ complaint.line = told) ∧
    (∀ call first, ConsoleCall call pos first →
      ∃ i, ofNode? cs (encodingMarkLength source.toList) call = some i ∧
        i.line = told + loneReturns cs pos ∧
        (i.line = told ↔ ∀ k < pos, cs[k]? = some '\r' → cs[k + 1]? = some '\n') ∧
        ∀ document, Document.parse false (String.ofList cs) = .ok document →
          call ∈ document.items.flatMap Node.subterms → i.line ∈ (ofSource source).lines) := by
  intro cs told
  refine ⟨fun fileStart diagnostic => ?_, ?_, ?_⟩
  · exact ⟨_, Complaint.ofSpan?_of_position source fileStart pos diagnostic, rfl⟩
  · rintro flaw hflaw rfl
    exact ⟨_, compile_of_error rfl hflaw, rfl⟩
  · intro call first hcall
    have hi := ofNode?_of_consoleCall hcall cs (encodingMarkLength source.toList)
    have hline : sourceLineAt cs pos = told + loneReturns cs pos := sourceLineAt_eq_lineAt_add cs pos
    refine ⟨_, hi, hline, ?_, ?_⟩
    · rw [← loneReturns_eq_zero_iff]
      dsimp only
      omega
    · intro document hdocument hmem
      exact mem_lines_ofSource hdocument hmem hi

/-- **A carriage return is counted by the one and not by the other.** So it is not so that what is told of a flaw
names the line that the marker of a call would name there. -/
theorem lone_return_is_not_counted :
    ¬ ∀ (source : String) (flaw : Flaw) (complaint : Complaint) (call first : Node) (i : Insertion),
      Document.parse true (String.ofList (withoutEncodingMark source.toList)) = .error flaw →
      compile source = .error (.parse complaint) → ConsoleCall call flaw.pos first →
      ofNode? (withoutEncodingMark source.toList) (encodingMarkLength source.toList) call = some i →
      i.line = complaint.line := by
  intro h
  obtain ⟨source, hsource⟩ : ∃ source, source = "a\r;= 1" := ⟨_, rfl⟩
  have hread : ((Document.parse true (String.ofList (withoutEncodingMark source.toList))).map fun _ => ()).mapError
      (fun flaw => sourceLineAt (withoutEncodingMark source.toList) flaw.pos) = .error 2 := by
    rw [hsource]
    decide +kernel
  have htold : compile source =
      .error (.parse ⟨1, "Parse error at line 1:\n  a\r;= 1\n     ^\nExpression expected"⟩) := by
    rw [hsource]
    decide +kernel
  cases hparse : Document.parse true (String.ofList (withoutEncodingMark source.toList)) with
  | ok document =>
    rw [hparse] at hread
    cases hread
  | error flaw =>
    rw [hparse] at hread
    let first : Node := .literal 15 .null
    let call : Node := .call flaw.pos .plain
      (.member flaw.pos .plain (.identifier flaw.pos "console" 0) (.word 11 "log")) [] [first]
    have hcall : ConsoleCall call flaw.pos first := ⟨_, _, _, _, "log", [], [], by decide, rfl⟩
    have hsame := h source flaw _ call first _ hparse htold hcall (ofNode?_of_consoleCall hcall _ _)
    have htwo : sourceLineAt (withoutEncodingMark source.toList) flaw.pos = 2 := Except.error.inj hread
    exact absurd (htwo.symm.trans hsame) (by decide)

end Marking

end Scratchpad
