import Scratchpad.Proofs.Marking.Complaints
import Scratchpad.Run.Supervision
import Scratchpad.TypeScript.Span

/-!
# Sources behind an encoding mark

An encoding mark at the beginning of a source changes nothing but itself. The readers leave it out, and none of
their positions counts it. What is inserted into the source has to count its bytes, and what is told of a flaw must
not. So the source is marked as without it and keeps it at the beginning, and it is compiled as without it, whether
it is marked before or not.

## Main statements

* `Marking.ofSource_encodingMark`: what becomes of a source behind an encoding mark when it is marked.
* `compile_encodingMark`: it is compiled as the source.
* `Marking.behind_encodingMark`: an encoding mark changes nothing but itself.
-/

namespace Scratchpad

open Text TypeScript

variable {source : String}

theorem toList_encodingMark_append (source : String) :
    ("\ufeff" ++ source).toList = encodingMark :: source.toList :=
  String.toList_append

theorem withoutEncodingMark_append (source : String) :
    withoutEncodingMark ("\ufeff" ++ source).toList = source.toList := by
  rw [toList_encodingMark_append]
  rfl

/-- A source is compiled by what stands behind an encoding mark. -/
theorem compile_congr {a b : String} (h : withoutEncodingMark a.toList = withoutEncodingMark b.toList) :
    compile a = compile b := by
  cases hparse : Document.parse true (String.ofList (withoutEncodingMark b.toList)) with
  | error flaw => rw [compile_of_error h hparse, compile_of_error rfl hparse]
  | ok document => rw [compile_of_ok h hparse, compile_of_ok rfl hparse]

/-- **A source behind an encoding mark is compiled as the source**, and the same is told of a flaw. -/
theorem compile_encodingMark (h : source.toList.head? ≠ some encodingMark) :
    compile ("\ufeff" ++ source) = compile source := by
  apply compile_congr
  rw [withoutEncodingMark_append, Insertion.withoutEncodingMark_of_head?_ne h]

namespace Marking

open Insertion Run

/-- **A source behind an encoding mark receives its own markers.** -/
theorem ofSource_encodingMark (h : source.toList.head? ≠ some encodingMark) :
    ofSource ("\ufeff" ++ source) = ⟨"\ufeff" ++ (ofSource source).code, (ofSource source).lines⟩ := by
  have hbehind := withoutEncodingMark_append source
  have hself := withoutEncodingMark_of_head?_ne h
  cases hparse : Document.parse false (String.ofList source.toList) with
  | error flaw =>
    rw [ofSource_of_error (by rw [hbehind]; exact hparse), ofSource_of_error (by rw [hself]; exact hparse)]
    rfl
  | ok document =>
    rw [ofSource_of_ok (by rw [hbehind]; exact hparse), ofSource_of_ok (by rw [hself]; exact hparse), hbehind,
      hself]
    have hmark : encodingMarkLength ("\ufeff" ++ source).toList = encodingMark.utf8Size := by
      rw [toList_encodingMark_append]
      rfl
    have hnone : encodingMarkLength source.toList = 0 := if_neg h
    have hcode : ∀ cs, String.ofList (encodingMark :: cs) = "\ufeff" ++ String.ofList cs := fun _ => String.ofList_cons
    have hlines : ((·.line) ∘ shift encodingMark.utf8Size : Insertion → Nat) = (·.line) := rfl
    rw [hmark, hnone, ofItems_eq_map, ofInsertions, ofInsertions, toList_encodingMark_append,
      splice_map_shift, List.map_map, hlines, hcode]

/-- No encoding mark comes to stand at the beginning of a source when it is marked. -/
theorem head?_code_ofSource_ne (h : source.toList.head? ≠ some encodingMark) :
    (ofSource source).code.toList.head? ≠ some encodingMark := by
  cases hparse : Document.parse false (String.ofList (withoutEncodingMark source.toList)) with
  | error flaw =>
    rw [ofSource_of_error hparse]
    exact h
  | ok document =>
    rw [ofSource_of_ok hparse, ofInsertions, String.toList_ofList]
    exact head?_splice_ne _ h

/-- **An encoding mark changes nothing but itself.** Whatever a source is, as long as it does not begin with such a
mark itself: behind one it receives the same markers and keeps the mark at its beginning, it is compiled to the same
code or the same is told of it, wherever a span begins the same complaint comes of it, and the text that is run in
the end is the same. -/
theorem behind_encodingMark (source : String) (h : source.toList.head? ≠ some encodingMark) :
    ofSource ("\ufeff" ++ source) = ⟨"\ufeff" ++ (ofSource source).code, (ofSource source).lines⟩ ∧
    compile ("\ufeff" ++ source) = compile source ∧
    (∀ fileStart lo diagnostic, Complaint.ofSpan? ("\ufeff" ++ source) fileStart lo diagnostic =
      Complaint.ofSpan? source fileStart lo diagnostic) ∧
    ∀ (workshop : Workshop) (matchLines : Bool), workshop.compiler = compile →
      Supervision.composed workshop matchLines ("\ufeff" ++ source) =
        Supervision.composed workshop matchLines source := by
  refine ⟨ofSource_encodingMark h, compile_encodingMark h, fun fileStart lo diagnostic => ?_, ?_⟩
  · have hbehind := withoutEncodingMark_append source
    rw [Complaint.ofSpan?, Complaint.ofSpan?, hbehind, withoutEncodingMark_of_head?_ne h]
  · intro workshop matchLines hcompiler
    rw [Supervision.composed, Supervision.composed, hcompiler]
    cases matchLines with
    | false => exact congrArg (·.map composeEntry) (compile_encodingMark h)
    | true =>
      have hcode := compile_encodingMark (head?_code_ofSource_ne h)
      rw [ofSource_encodingMark h]
      exact congrArg (·.map composeEntry) hcode

/-- A call within another one, on its second line and behind a character of two bytes. -/
theorem behind_encodingMark_nested :
    let source := "console.log(\"é\",\nconsole.warn(1))"
    source.toList.head? ≠ some encodingMark ∧
    ofSource ("\ufeff" ++ source) =
      ⟨"\ufeffconsole.log(\"[LINE_MARKER:1]\", \"é\",\nconsole.warn(\"[LINE_MARKER:2]\", 1))", [1, 2]⟩ ∧
    compile ("\ufeff" ++ source) = compile source ∧
    (∀ fileStart lo diagnostic, Complaint.ofSpan? ("\ufeff" ++ source) fileStart lo diagnostic =
      Complaint.ofSpan? source fileStart lo diagnostic) ∧
    Supervision.composed ⟨default, compile⟩ true ("\ufeff" ++ source) =
      Supervision.composed ⟨default, compile⟩ true source := by
  intro source
  have hsource : source = "console.log(\"é\",\nconsole.warn(1))" := rfl
  clear_value source
  have hhead : source.toList.head? ≠ some encodingMark := by
    rw [hsource]
    decide
  obtain ⟨document, hparse, hitems⟩ : ∃ document,
      Document.parse false (String.ofList (withoutEncodingMark source.toList)) = .ok document ∧
        ofItems (withoutEncodingMark source.toList) (encodingMarkLength source.toList) document.items =
          [⟨12, 1⟩, ⟨31, 2⟩] := by
    subst hsource
    exact ofItems_eq_of_isWithin 8 _ (by decide +kernel)
  have hcode : ofSource source =
      ⟨"console.log(\"[LINE_MARKER:1]\", \"é\",\nconsole.warn(\"[LINE_MARKER:2]\", 1))", [1, 2]⟩ := by
    have hdesc : (([⟨12, 1⟩, ⟨31, 2⟩] : List Insertion).mergeSort fun a b => b.offset ≤ a.offset) =
        [⟨31, 2⟩, ⟨12, 1⟩] := by cbv
    have hlines : (([⟨12, 1⟩, ⟨31, 2⟩] : List Insertion).map (·.line)).mergeSort = [1, 2] := by cbv
    rw [ofSource_of_ok hparse, hitems, ofInsertions, splice, hdesc, hlines, hsource]
    decide +kernel
  obtain ⟨hmarked, hcompiled, hspans, hcomposed⟩ := behind_encodingMark source hhead
  have hentry := hcomposed ⟨default, compile⟩ true (by dsimp only)
  refine ⟨hhead, ?_, hcompiled, hspans, hentry⟩
  rw [hmarked, hcode]
  decide

end Marking

end Scratchpad
