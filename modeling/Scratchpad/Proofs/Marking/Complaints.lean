import Scratchpad.Compilation
import Scratchpad.Proofs.Marking.Calls
import Scratchpad.Proofs.Marking.Lines
import Scratchpad.Proofs.TypeScript.Description

/-!
# What is told of a marked source

A source with its markers is compiled in place of the source. A flaw is then one of the text with markers: its
line has the number that it has in the source, but what is shown is the line with the markers on it, and the
caret stands behind those that come before the place. So the user is told what would be told of the source
itself if and only if there is no marker on that line.

## Main definitions

* `Insertion.Retells`: a place of a text with insertions, and what is told of it.
* `Insertion.ascending`: insertions in ascending order.

## Main statements

* `Insertion.exists_retells`: what is told of any place.
* `Insertion.withoutEncodingMark_splice`: markers are inserted behind an encoding mark.
* `Marking.compile_ofSource`: what is told of a marked source.
-/

namespace Scratchpad

open Text TypeScript

namespace Insertion

variable {cs before line behind : List Char} {is : List Insertion} {pos : Nat}

/-! ## What is told of a flaw -/

/-- A place of a text with insertions against a position of the text, and what is told of either. -/
structure Retells (cs : List Char) (is : List Insertion) (pos' pos : Nat) : Prop where
  /-- The line has the number that it has in the text. -/
  lineAt_eq : lineAt (is.foldr applyTo cs) pos' = lineAt cs pos
  /-- What is shown is the line with what is inserted on it. -/
  excerpt : ∃ before line behind line', IsLine cs before line behind ∧ before.length ≤ pos ∧
    pos ≤ before.length + line.length ∧
    weave? (before ++ line) (byteLength before) (onLine cs pos is) = some line' ∧
    lineTextAt cs pos = firstLine (line ++ behind) ∧
    lineTextAt (is.foldr applyTo cs) pos' = firstLine (line' ++ behind)
  /-- The caret has moved behind what is inserted on the line before the position. A place within what is inserted
  right before the position is that much farther ahead. -/
  caret : ∃ k ≤ (inserted (rightAt cs pos is)).length,
    min pos' (is.foldr applyTo cs).length + k = landing is cs pos ∧
    columnAt (is.foldr applyTo cs) pos' + k =
      columnAt cs pos + (inserted (upTo cs pos (onLine cs pos is))).length
  /-- A fault is told alike if and only if nothing is inserted on the line. -/
  told_iff : ∀ fault, Complaint.ofFlaw (is.foldr applyTo cs) ⟨pos', fault⟩ = .ofFlaw cs ⟨pos, fault⟩ ↔
    onLine cs pos is = []

/-- What is inserted right at a position is inserted on its line, and before the position or at it. -/
theorem rightAt_sublist (h : IsLine cs before line behind) (hcut : ∀ i ∈ is, i.IsCut cs)
    (hle : before.length ≤ pos) (hge : pos ≤ before.length + line.length) :
    (rightAt cs pos is).Sublist (upTo cs pos (onLine cs pos is)) := by
  have heq : rightAt cs pos is =
      (upTo cs pos (onLine cs pos is)).filter (·.offset = byteLength (cs.take pos)) := by
    rw [rightAt, upTo, onLine, List.filter_filter, List.filter_filter]
    refine List.filter_congr fun i hi => ?_
    rw [Bool.eq_iff_iff, Bool.and_eq_true, Bool.and_eq_true, isOnLine_iff h (hcut i hi) hle hge]
    obtain ⟨hfrom, hto⟩ := byteLength_take_of_isLine h hle hge
    simp only [decide_eq_true_iff]
    omega
  rw [heq]
  exact List.filter_sublist

/-- What is shown of a line and of a longer one differs, if the other is longer by more than the character that
may be left out at the end. -/
theorem firstLine_ne {line line' behind behind' : List Char} (h : '\n' ∉ line) (h' : '\n' ∉ line')
    (hbehind : ∀ c, behind.head? = some c → c = '\n') (hbehind' : ∀ c, behind'.head? = some c → c = '\n')
    (hlt : line.length + 1 < line'.length) : firstLine (line' ++ behind') ≠ firstLine (line ++ behind) := by
  intro heq
  obtain ⟨hle, -⟩ := length_firstLine_append h hbehind
  obtain ⟨-, hge⟩ := length_firstLine_append h' hbehind'
  rw [heq] at hge
  omega

/-- What is told of a fault shows what stands on the line. -/
theorem lineTextAt_of_ofFlaw_eq {cs cs' : List Char} {pos pos' : Nat} {fault : Fault}
    (h : Complaint.ofFlaw cs' ⟨pos', fault⟩ = .ofFlaw cs ⟨pos, fault⟩) :
    lineTextAt cs' pos' = lineTextAt cs pos := by
  have hline : lineAt cs' pos' = lineAt cs pos := congrArg Complaint.line h
  have hmessage := congrArg (fun c => c.message.toList) h
  simp only [Complaint.ofFlaw, Complaint.about, hline, String.toList_append, String.toList_ofList, List.append_assoc,
    List.append_cancel_left_eq] at hmessage
  have hfeed : ∀ rest : List Char, ∀ c, ("\n  ".toList ++ rest).head? = some c → c = '\n' := by
    intro rest c hc
    exact (Option.some.inj hc).symm
  have hfree : ∀ cs pos, '\n' ∉ lineTextAt cs pos := fun _ _ => newline_notMem_firstLine _
  have hcut := congrArg (List.takeWhile (· != '\n')) hmessage
  rwa [takeWhile_ne_newline_append (hfree cs' pos') (hfeed _),
    takeWhile_ne_newline_append (hfree cs pos) (hfeed _)] at hcut

/-- **Every place of a text with insertions retells a position of the text.** -/
theorem exists_retells (hsorted : is.Pairwise (·.offset ≤ ·.offset)) (hcut : ∀ i ∈ is, i.IsCut cs)
    (pos' : Nat) : ∃ pos ≤ cs.length, Retells cs is pos' pos := by
  have hlength := length_foldr_applyTo hsorted hcut
  have hbound : min pos' (is.foldr applyTo cs).length ≤ cs.length + (inserted is).length := by omega
  obtain ⟨pos, k, hpos, hlands, hk⟩ := exists_landing hcut hbound
  obtain ⟨before, line, behind, h, hle, hge⟩ := exists_isLine cs hpos
  obtain ⟨before', line', behind', h', hcount, hnil, hweave, hline', hlanding⟩ :=
    exists_isLine_foldr h hsorted hcut hle hge
  obtain ⟨hlineMin, hcolumnMin, htextMin⟩ := about_min (is.foldr applyTo cs) pos'
  have hright : (inserted (rightAt cs pos is)).length ≤
      (inserted (upTo cs pos (onLine cs pos is))).length :=
    length_inserted_le (rightAt_sublist h hcut hle hge)
  have hupTo : (inserted (upTo cs pos (onLine cs pos is))).length ≤
      (inserted (onLine cs pos is)).length := length_inserted_le List.filter_sublist
  have hle' : before'.length ≤ min pos' (is.foldr applyTo cs).length := by omega
  have hge' : min pos' (is.foldr applyTo cs).length ≤ before'.length + line'.length := by omega
  have htext : lineTextAt (is.foldr applyTo cs) pos' = firstLine (line' ++ behind) := by
    rw [← htextMin, h'.lineTextAt_eq hle' hge',
      firstLine_append_congr h'.newline_notMem h.behind_begins h'.behind_begins hnil]
  have hcaret : columnAt (is.foldr applyTo cs) pos' + k =
      columnAt cs pos + (inserted (upTo cs pos (onLine cs pos is))).length := by
    rw [← hcolumnMin, h'.columnAt_eq hle' hge', h.columnAt_eq hle hge]
    omega
  have hat : lineAt (is.foldr applyTo cs) pos' = lineAt cs pos := by
    rw [← hlineMin, h'.lineAt_eq hle' hge', h.lineAt_eq hle hge, hcount]
  refine ⟨pos, hpos, hat, ⟨before, line, behind, line', h, hle, hge, hweave, h.lineTextAt_eq hle hge, htext⟩,
    ⟨k, hk, hlands, hcaret⟩, fun fault => ?_⟩
  constructor
  · intro htold
    by_contra hne
    have hexcerpt := lineTextAt_of_ofFlaw_eq htold
    rw [htext, h.lineTextAt_eq hle hge] at hexcerpt
    refine firstLine_ne h.newline_notMem h'.newline_notMem h.behind_begins h.behind_begins ?_ hexcerpt
    obtain ⟨i, others, hown⟩ := List.exists_cons_of_ne_nil hne
    have hlong := length_literal_lt i.line
    rw [hline', hown, inserted_cons, List.length_append]
    omega
  · intro hown
    rw [hown] at hweave hcaret hright
    obtain rfl : line = line' := Option.some.inj ((weave?_nil before line).symm.trans hweave)
    have hcolumn : columnAt (is.foldr applyTo cs) pos' = columnAt cs pos := by
      have hnone : (inserted (upTo cs pos [])).length = 0 := rfl
      omega
    simp only [Complaint.ofFlaw, Complaint.about, hat, hcolumn, htext, h.lineTextAt_eq hle hge,
      description_diagnostic pos' pos fault]

/-! ## Texts behind an encoding mark -/

/-- An insertion that is made farther behind. -/
def shift (n : Nat) (i : Insertion) : Insertion := { i with offset := i.offset + n }

theorem ofItems_eq_map (cs : List Char) (skipped : Nat) (items : List Node) :
    ofItems cs skipped items = (ofItems cs 0 items).map (shift skipped) := by
  rw [ofItems, ofItems, List.map_filterMap]
  refine List.filterMap_congr fun n _ => ?_
  unfold ofNode?
  split
  · split <;> rfl
  · rfl

theorem cutAt?_cons (n : Nat) (c : Char) (cs : List Char) :
    cutAt? (n + c.utf8Size) (c :: cs) =
      (cutAt? n cs).map fun (before, after) => (c :: before, after) := by
  obtain ⟨k, hk⟩ : ∃ k, n + c.utf8Size = k + 1 :=
    Nat.exists_eq_succ_of_ne_zero (by have := c.utf8Size_pos; omega)
  rw [hk, cutAt?, if_pos (by omega), ← hk, Nat.add_sub_cancel]

theorem applyTo_shift (i : Insertion) (c : Char) (cs : List Char) :
    (i.shift c.utf8Size).applyTo (c :: cs) = c :: i.applyTo cs := by
  rw [applyTo, applyTo, shift, cutAt?_cons]
  cases cutAt? i.offset cs with
  | none => rfl
  | some parts => rfl

/-- What is inserted behind a character that is skipped is inserted as into the rest. -/
theorem splice_map_shift (c : Char) (is : List Insertion) (cs : List Char) :
    splice (is.map (shift c.utf8Size)) (c :: cs) = c :: splice is cs := by
  have hsort : (is.map (shift c.utf8Size)).mergeSort (fun a b => b.offset ≤ a.offset) =
      (is.mergeSort fun a b => b.offset ≤ a.offset).map (shift c.utf8Size) := by
    refine (List.map_mergeSort fun a _ b _ => ?_).symm
    simp only [shift, Nat.add_le_add_iff_right]
  rw [splice, splice, hsort]
  generalize is.mergeSort (fun a b => b.offset ≤ a.offset) = desc
  induction desc generalizing cs with
  | nil => rfl
  | cons i desc ih => rw [List.map_cons, List.foldl_cons, List.foldl_cons, applyTo_shift, ih]

/-- No encoding mark is inserted. -/
theorem head?_splice_ne (is : List Insertion) {cs : List Char} (h : cs.head? ≠ some encodingMark) :
    (splice is cs).head? ≠ some encodingMark := by
  rw [splice_eq_foldr]
  generalize (is.mergeSort fun a b => b.offset ≤ a.offset).reverse = asc
  induction asc with
  | nil => exact h
  | cons i asc ih =>
    rw [List.foldr_cons]
    cases hcut : cutAt? i.offset (asc.foldr applyTo cs) with
    | none => rwa [applyTo, hcut]
    | some parts =>
      obtain ⟨before, after⟩ := parts
      rw [(cutAt?_eq_some_iff.mp hcut).1] at ih
      rw [applyTo_eq hcut]
      cases before with
      | nil =>
        rw [List.nil_append, head?_literal_append]
        decide
      | cons b before => exact ih

theorem withoutEncodingMark_of_head?_ne {cs : List Char} (h : cs.head? ≠ some encodingMark) :
    withoutEncodingMark cs = cs := by
  cases cs with
  | nil => rfl
  | cons c cs =>
    have hne : (c == encodingMark) = false := by simpa using h
    rw [withoutEncodingMark, hne]
    rfl

/-- **Behind an encoding mark markers are inserted as if it were not there.** -/
theorem withoutEncodingMark_splice (cs : List Char) (items : List Node) :
    withoutEncodingMark (splice (ofItems (withoutEncodingMark cs) (encodingMarkLength cs) items) cs) =
      splice (ofItems (withoutEncodingMark cs) 0 items) (withoutEncodingMark cs) := by
  by_cases hmark : cs.head? = some encodingMark
  · obtain ⟨rest, rfl⟩ : ∃ rest, cs = encodingMark :: rest := ⟨_, List.eq_cons_of_mem_head? hmark⟩
    have hrest : withoutEncodingMark (encodingMark :: rest) = rest := rfl
    have hlength : encodingMarkLength (encodingMark :: rest) = encodingMark.utf8Size := rfl
    rw [hrest, hlength, ofItems_eq_map, splice_map_shift]
    rfl
  · have hlength : encodingMarkLength cs = 0 := if_neg hmark
    rw [hlength, withoutEncodingMark_of_head?_ne hmark,
      withoutEncodingMark_of_head?_ne (head?_splice_ne _ hmark)]

/-- Insertions in ascending order. -/
def ascending (is : List Insertion) : List Insertion :=
  (is.mergeSort fun a b => b.offset ≤ a.offset).reverse

theorem pairwise_ascending (is : List Insertion) : (ascending is).Pairwise (·.offset ≤ ·.offset) :=
  List.pairwise_reverse.mpr (pairwise_mergeSort_le is)

theorem mem_ascending {is : List Insertion} {i : Insertion} : i ∈ ascending is ↔ i ∈ is := by
  rw [ascending, List.mem_reverse, List.mem_mergeSort]

theorem isCut_of_mem_ofItems {cs : List Char} {items : List Node} {i : Insertion}
    (h : i ∈ ofItems cs 0 items) : i.IsCut cs := by
  obtain ⟨n, -, hn⟩ := List.mem_filterMap.mp h
  obtain ⟨pos, first, -, rfl⟩ := ofNode?_eq_some_iff.mp hn
  refine ⟨cs.take (argumentStart first), cs.drop (argumentStart first), ?_⟩
  exact cutAt?_eq_some_iff.mpr ⟨(List.take_append_drop ..).symm, rfl⟩

end Insertion

/-! ## Marked sources -/

namespace Marking

open Insertion

/-- **What is told of a marked source.** A source that cannot be read is not marked, and what is not marked is
compiled as it is. Otherwise the markers are inserted in ascending order, and if the text with the markers is not
compiled, then it has a flaw and the user is told of that, at a place which stands for a position of the source.
The line number is that of the position. The excerpt is its line with the markers on it, and the caret stands
behind those before the position. So the user is told what would be told of the source alone if and only if
there is no marker on that line. -/
theorem compile_ofSource (source : String) :
    let cs := withoutEncodingMark source.toList
    (∀ flaw, Document.parse false (String.ofList cs) = .error flaw → (ofSource source).lines = []) ∧
    ((ofSource source).lines = [] → compile (ofSource source).code = compile source) ∧
    ∀ document, Document.parse false (String.ofList cs) = .ok document →
      let is := ascending (ofItems cs 0 document.items)
      let marked := is.foldr applyTo cs
      ∀ failure, compile (ofSource source).code = .error failure →
        ∃ flaw, Document.parse true (String.ofList marked) = .error flaw ∧
          failure = .parse (.ofFlaw marked flaw) ∧
          ∃ pos ≤ cs.length, Retells cs is flaw.pos pos ∧
            (failure = .parse (.ofFlaw cs ⟨pos, flaw.fault⟩) ↔ onLine cs pos is = []) := by
  intro cs
  refine ⟨?_, ?_, ?_⟩
  · intro flaw hflaw
    rw [ofSource_of_error hflaw]
    rfl
  · intro hlines
    suffices hcode : (ofSource source).code = source by rw [hcode]
    cases hparse : Document.parse false (String.ofList cs) with
    | error flaw =>
      rw [ofSource_of_error hparse]
      rfl
    | ok document =>
      rw [ofSource_of_ok hparse] at hlines ⊢
      generalize ofItems _ _ document.items = is at hlines ⊢
      have hlength := congrArg List.length hlines
      rw [ofInsertions, List.length_mergeSort, List.length_map] at hlength
      obtain rfl : is = [] := List.eq_nil_of_length_eq_zero hlength
      rw [ofInsertions_nil]
      rfl
  · intro document hdocument is marked failure hfailure
    have hcode : withoutEncodingMark (ofSource source).code.toList = marked := by
      rw [ofSource_of_ok hdocument, ofInsertions, String.toList_ofList, withoutEncodingMark_splice,
        splice_eq_foldr]
      rfl
    have hcut : ∀ i ∈ is, i.IsCut cs := fun i hi => isCut_of_mem_ofItems (mem_ascending.mp hi)
    cases hparse : Document.parse true (String.ofList marked) with
    | ok _ =>
      rw [compile_of_ok hcode hparse] at hfailure
      cases hfailure
    | error flaw =>
      rw [compile_of_error hcode hparse] at hfailure
      obtain rfl := (Except.error.inj hfailure).symm
      obtain ⟨pos, hpos, hretells⟩ := exists_retells (pairwise_ascending _) hcut flaw.pos
      refine ⟨flaw, rfl, rfl, pos, hpos, hretells, ?_⟩
      rw [CompileFailure.parse.injEq]
      exact hretells.told_iff flaw.fault

/-- A flaw that only a module has, on the second of two lines with markers, behind an encoding mark. -/
theorem compile_ofSource_second_line :
    let source := "\ufeffconsole.log(1);\nconsole.log(2); yield = 2"
    let cs := withoutEncodingMark source.toList
    let is : List Insertion := [⟨12, 1⟩, ⟨28, 2⟩]
    let failure : CompileFailure := .parse ⟨2, "Parse error at line 2:\n" ++
      "  console.log(\"[LINE_MARKER:2]\", 2); yield = 2\n" ++
      "                                     ^\nExpression expected"⟩
    (∃ document, Document.parse false (String.ofList cs) = .ok document ∧
      ascending (ofItems cs 0 document.items) = is) ∧
    compile (ofSource source).code = .error failure ∧
    ∃ flaw, Document.parse true (String.ofList (is.foldr applyTo cs)) = .error flaw ∧
      failure = .parse (.ofFlaw (is.foldr applyTo cs) flaw) ∧
      ∃ pos ≤ cs.length, Retells cs is flaw.pos pos ∧ onLine cs pos is = [⟨28, 2⟩] ∧
        failure ≠ .parse (.ofFlaw cs ⟨pos, flaw.fault⟩) := by
  intro source
  have hsource : source = "\ufeffconsole.log(1);\nconsole.log(2); yield = 2" := rfl
  clear_value source
  intro cs is failure
  obtain ⟨document, hparse, hitems⟩ : ∃ document,
      Document.parse false (String.ofList (withoutEncodingMark source.toList)) = .ok document ∧
        ofItems (withoutEncodingMark source.toList) 0 document.items = is := by
    subst hsource
    exact ofItems_eq_of_isWithin 8 _ (by decide +kernel)
  have hascending : ascending (ofItems cs 0 document.items) = is := by
    have hdesc : (is.mergeSort fun a b => b.offset ≤ a.offset) = [⟨28, 2⟩, ⟨12, 1⟩] := by cbv
    rw [hitems, ascending, hdesc]
    rfl
  have hcode : (ofSource source).code = "\ufeffconsole.log(\"[LINE_MARKER:1]\", 1);\n" ++
      "console.log(\"[LINE_MARKER:2]\", 2); yield = 2" := by
    have hdesc : (([⟨15, 1⟩, ⟨31, 2⟩] : List Insertion).mergeSort fun a b => b.offset ≤ a.offset) =
        [⟨31, 2⟩, ⟨15, 1⟩] := by cbv
    have hlength : encodingMarkLength source.toList = 3 := by
      subst hsource
      rfl
    have hshifted : is.map (shift 3) = [⟨15, 1⟩, ⟨31, 2⟩] := rfl
    rw [ofSource_of_ok hparse, ofItems_eq_map, hitems, hlength, hshifted, ofInsertions, splice, hdesc, hsource]
    decide +kernel
  have hfailure : compile (ofSource source).code = .error failure := by
    rw [hcode]
    decide +kernel
  obtain ⟨-, -, hmarked⟩ := compile_ofSource source
  obtain ⟨flaw, hflaw, htold, pos, hpos, hretells, hiff⟩ := hmarked document hparse failure hfailure
  rw [hascending] at hflaw htold hretells hiff
  have hline : lineAt cs pos = 2 := by
    rw [← hretells.lineAt_eq]
    exact (congrArg Complaint.line (CompileFailure.parse.inj htold)).symm
  have honLine : onLine cs pos is = [⟨28, 2⟩] := by
    have hcs : cs = "console.log(1);\nconsole.log(2); yield = 2".toList := by
      show withoutEncodingMark source.toList = _
      rw [hsource]
      decide +kernel
    rw [onLine, hline, hcs]
    decide +kernel
  refine ⟨⟨document, hparse, hascending⟩, hfailure, flaw, hflaw, htold, pos, hpos, hretells, honLine, ?_⟩
  intro hsame
  have hnone := hiff.mp hsame
  rw [honLine] at hnone
  cases hnone

/-- **A marker is shown to the user.** `yield` is a name in a script and none in a module. So the source is
marked, is not compiled, and its line is shown with the marker on it. -/
theorem marker_is_shown :
    ¬ ∀ (source : String) (failure : CompileFailure),
      compile (ofSource source).code = .error failure ↔ compile source = .error failure := by
  have hread : ∀ source, source = "console.log(yield)" →
      ∃ document, Document.parse false (String.ofList (withoutEncodingMark source.toList)) = .ok document ∧
        ofItems (withoutEncodingMark source.toList) (encodingMarkLength source.toList) document.items =
          [⟨12, 1⟩] := by
    rintro _ rfl
    exact ofItems_eq_of_isWithin 8 _ (by decide +kernel)
  have hmarked : ∀ source, source = "console.log(yield)" →
      (ofSource source).code = "console.log(\"[LINE_MARKER:1]\", yield)" := by
    intro source hsource
    obtain ⟨document, hparse, hitems⟩ := hread source hsource
    rw [ofSource_of_ok hparse, hitems, ofInsertions, splice, List.mergeSort_singleton, hsource]
    decide +kernel
  have htold : ∀ source, source = "console.log(yield)" →
      compile source = .error (.parse ⟨1, "Parse error at line 1:\n  console.log(yield)\n" ++
        "              ^\nExpression expected"⟩) := by
    rintro _ rfl
    decide +kernel
  intro hall
  have h := (hall _ _).mpr (htold _ rfl)
  rw [hmarked _ rfl] at h
  revert h
  decide +kernel

end Marking

end Scratchpad
