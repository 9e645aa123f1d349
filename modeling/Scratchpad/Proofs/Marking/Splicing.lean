import Mathlib.Data.List.Permutation
import Mathlib.Data.List.Sort
import Scratchpad.Log.Entry
import Scratchpad.Marking

/-!
# Markers are inserted all at once

Markers are spliced into a text one after another, each at a place that was counted before any of them was
there. The one farthest behind goes first, so what stands before the next one is still as it was. What
comes out is what one pass over the text from its beginning to its end would write: the text up to the
first place, a marker, the text up to the second place, and so on.

A marker holds no line end, and it never comes between a carriage return and a line feed, since no token
begins there. So every character of the text stays on its line.

## Main definitions

* `Insertion.weave?`: a text with markers, written in one pass.
* `Insertion.removeFrom?`: a text without a marker that was inserted into it.
* `Insertion.landing`: where a character of a text stands once markers have been inserted.
* `Insertion.IsCut`: a place that is not within a character.
* `Insertion.BeginsToken`, `Insertion.AtToken`: a place where a token begins.

## Main statements

* `Insertion.exists_foldr_applyTo`: what stands before all insertions is as it was.
* `Insertion.splice_eq_foldr`: markers go in from behind.
* `Insertion.foldlM_removeFrom?`: removing markers gives the text back.
* `Insertion.landing_spec`: every character stays on its line.
* `Marking.ofInsertions_eq_weave`: what a source with markers is.
-/

namespace Scratchpad

open Text TypeScript

namespace Insertion

/-! ## One pass -/

/-- What stands in a text from one offset up to another. -/
def between? (start stop : Nat) (cs : List Char) : Option (List Char) := do
  let (upTo, _) ← cutAt? stop cs
  let (_, part) ← cutAt? start upTo
  return part

/-- What is inserted for a line. -/
def literal (line : Nat) : List Char := ("\"[LINE_MARKER:" ++ toString line ++ "]\", ").toList

/-- A text with markers from an offset on, written in one pass: for every insertion what stands in the text
before it and then what it inserts, and the rest of the text behind the last one. -/
def weave? (cs : List Char) (start : Nat) : List Insertion → Option (List Char)
  | [] => between? start (byteLength cs) cs
  | i :: is => do
    let part ← between? start i.offset cs
    let rest ← weave? cs i.offset is
    return part ++ literal i.line ++ rest

/-- A text without what one insertion has inserted, if that stands there. -/
def removeFrom? (i : Insertion) (cs : List Char) : Option (List Char) := do
  let (before, after) ← cutAt? i.offset cs
  let rest ← Log.afterOpening? (literal i.line) after
  return before ++ rest

/-- Where a character of a text stands once markers have been inserted: behind those that are inserted before
it. -/
def landing (is : List Insertion) (cs : List Char) (pos : Nat) : Nat :=
  pos + ((is.filter fun i => i.offset ≤ byteLength (cs.take pos)).flatMap fun i => literal i.line).length

/-- A token of a text begins at a position: where the scanner finds one, or where the text of a template
begins, behind its opening quotation mark or the brace that closes an expression in it. -/
inductive BeginsToken (cs : List Char) : Nat → Prop
  | scanned (pos : Nat) : BeginsToken cs (scanToken cs.toArray pos).start
  | templateText {pos : Nat} (h : cs[pos]? = some '\x60' ∨ cs[pos]? = some '\x7d') :
      BeginsToken cs (pos + 1)

/-- An insertion is made where a token of the text begins. -/
def AtToken (cs : List Char) (i : Insertion) : Prop :=
  ∃ start < cs.length, BeginsToken cs start ∧ i.offset = byteLength (cs.take start)

/-- An insertion is made before, between or behind the characters of a text, and not within one. -/
def IsCut (cs : List Char) (i : Insertion) : Prop :=
  ∃ before after, cutAt? i.offset cs = some (before, after)

/-- An insertion is made between two characters of a text, and no line end of two characters is divided. -/
def IsPlace (cs : List Char) (i : Insertion) : Prop :=
  ∃ before after, cutAt? i.offset cs = some (before, after) ∧ SparesLineEnd before after

/-! ## One insertion -/

theorem text_eq_literal (i : Insertion) : i.text = literal i.line := by
  simp [text, literal, Log.lineMarker, Log.markerOpening, Log.markerClosing]

theorem head?_literal_append (line : Nat) (cs : List Char) :
    (literal line ++ cs).head? = some '"' := by
  simp [literal]

/-- What is inserted holds the digits of a line and the marks around them. -/
theorem notMem_literal (line : Nat) {c : Char} (hdigit : c.isDigit = false)
    (hopening : c ∉ "\"[LINE_MARKER:".toList) (hclosing : c ∉ "]\", ".toList) : c ∉ literal line := by
  intro hc
  simp only [literal, String.toList_append, List.mem_append] at hc
  rcases hc with (hc | hc) | hc
  · exact hopening hc
  · have hmem : c ∈ Nat.toDigits 10 line := by simpa using hc
    have hisDigit := Nat.isDigit_of_mem_toDigits (by omega) (by omega) hmem
    rw [hdigit] at hisDigit
    cases hisDigit
  · exact hclosing hc

theorem applyTo_eq {i : Insertion} {cs before after : List Char}
    (h : cutAt? i.offset cs = some (before, after)) :
    i.applyTo cs = before ++ (literal i.line ++ after) := by
  simp only [applyTo, h, text_eq_literal, List.append_assoc]

theorem between?_eq {stop : Nat} {cs before part after : List Char}
    (h : cutAt? stop cs = some (before ++ part, after)) :
    between? (byteLength before) stop cs = some part := by
  simp [between?, h, cutAt?_byteLength]

/-- A marker that has been inserted can be taken away again. -/
theorem removeFrom?_applyTo {i : Insertion} {cs : List Char} (h : (cutAt? i.offset cs).isSome) :
    i.removeFrom? (i.applyTo cs) = some cs := by
  obtain ⟨⟨before, after⟩, hcut⟩ := Option.isSome_iff_exists.mp h
  obtain ⟨rfl, hoffset⟩ := cutAt?_eq_some_iff.mp hcut
  rw [applyTo_eq hcut, removeFrom?, ← hoffset, cutAt?_byteLength]
  simp

theorem IsPlace.isCut {cs : List Char} {i : Insertion} (h : i.IsPlace cs) : i.IsCut cs := by
  obtain ⟨before, after, hcut, -⟩ := h
  exact ⟨before, after, hcut⟩

/-- **A token begins at a place where a marker may go**: no token that the scanner finds begins with a line
end, and the text of a template does not begin behind one. -/
theorem AtToken.isPlace {cs : List Char} {i : Insertion} (h : i.AtToken cs) : i.IsPlace cs := by
  obtain ⟨start, -, hbegins, hoffset⟩ := h
  refine ⟨cs.take start, cs.drop start, ?_, ?_⟩
  · rw [hoffset, cutAt?_eq_some_iff]
    exact ⟨(List.take_append_drop ..).symm, rfl⟩
  · cases hbegins with
    | scanned pos =>
      intro _ hfeed
      rw [List.head?_drop] at hfeed
      have hbreak : isLineBreak '\n' = false := by
        apply isLineBreak_skipGap cs.toArray pos (pos == 0) []
        rw [← hfeed]
        simp [scanToken]
      exact absurd hbreak (by decide)
    | @templateText pos hopens =>
      intro hlast
      have hreturn : cs[pos]? = some '\r' := by
        rw [← hlast, List.take_add_one]
        rcases hopens with hopens | hopens <;> simp [hopens]
      rcases hopens with hopens | hopens <;> simp [hopens] at hreturn

/-! ## Insertions in ascending order -/

/-- **What stands before all insertions is as it was**, and behind it is what one pass writes from there
on. -/
theorem exists_foldr_applyTo {cs before after : List Char} (hcs : cs = before ++ after)
    {is : List Insertion} (hsorted : is.Pairwise (·.offset ≤ ·.offset))
    (hle : ∀ i ∈ is, byteLength before ≤ i.offset) (hcut : ∀ i ∈ is, i.IsCut cs) :
    ∃ woven, weave? cs (byteLength before) is = some woven ∧ is.foldr applyTo cs = before ++ woven ∧
      (SparesLineEnd before after → SparesLineEnd before woven) := by
  induction is generalizing before after with
  | nil =>
    have hall : cutAt? (byteLength cs) cs = some (before ++ after, []) := by
      rw [← hcs]
      simpa using cutAt?_byteLength cs []
    exact ⟨after, between?_eq hall, hcs, id⟩
  | cons i is ih =>
    obtain ⟨upTo, onward, hhere⟩ := hcut i List.mem_cons_self
    obtain ⟨hupTo, hoffset⟩ := cutAt?_eq_some_iff.mp hhere
    obtain ⟨hfirst, hsorted⟩ := List.pairwise_cons.mp hsorted
    obtain ⟨woven, hweave, hfold, hwoven⟩ :=
      ih hupTo hsorted (fun j hj => hoffset ▸ hfirst j hj) fun j hj => hcut j (by simp [hj])
    obtain ⟨part, rfl, hafter⟩ := exists_eq_append_of_byteLength_le (hcs.symm.trans hupTo)
      (hoffset ▸ hle i List.mem_cons_self)
    refine ⟨part ++ literal i.line ++ woven, ?_, ?_, ?_⟩
    · rw [hoffset] at hweave
      simp only [weave?, between?_eq hhere, hweave]
      rfl
    · have hcut' : cutAt? i.offset (is.foldr applyTo cs) = some (before ++ part, woven) := by
        rw [hfold, ← hoffset, cutAt?_byteLength]
      rw [List.foldr_cons, applyTo_eq hcut']
      simp
    · intro hborder hlast
      cases part with
      | nil =>
        rw [List.nil_append, head?_literal_append]
        decide
      | cons c part => simpa [hafter] using hborder hlast

/-- An insertion that goes before all others finds its place as it was. -/
theorem exists_cutAt?_foldr {cs : List Char} {i : Insertion} {is : List Insertion}
    (hsorted : (i :: is).Pairwise (·.offset ≤ ·.offset)) (hplace : ∀ j ∈ i :: is, j.IsPlace cs) :
    ∃ before after woven, cs = before ++ after ∧ byteLength before = i.offset ∧
      is.foldr applyTo cs = before ++ woven ∧ SparesLineEnd before woven := by
  obtain ⟨before, after, hcut, hafter⟩ := hplace i List.mem_cons_self
  obtain ⟨hcs, hoffset⟩ := cutAt?_eq_some_iff.mp hcut
  obtain ⟨hfirst, hsorted⟩ := List.pairwise_cons.mp hsorted
  obtain ⟨woven, -, hfold, hwoven⟩ := exists_foldr_applyTo hcs hsorted
    (fun j hj => hoffset ▸ hfirst j hj) fun j hj => (hplace j (List.mem_cons_of_mem i hj)).isCut
  exact ⟨before, after, woven, hcs, hoffset, hfold, hwoven hafter⟩

/-- Markers that have been inserted can be taken away again, the foremost first. -/
theorem foldlM_removeFrom? {cs : List Char} {is : List Insertion}
    (hsorted : is.Pairwise (·.offset ≤ ·.offset)) (hplace : ∀ i ∈ is, i.IsPlace cs) :
    is.foldlM (fun text i => i.removeFrom? text) (is.foldr applyTo cs) = some cs := by
  induction is with
  | nil => rfl
  | cons i is ih =>
    obtain ⟨before, after, woven, -, hoffset, hfold, -⟩ := exists_cutAt?_foldr hsorted hplace
    have hcut : (cutAt? i.offset (is.foldr applyTo cs)).isSome := by
      rw [hfold, ← hoffset, cutAt?_byteLength]
      rfl
    rw [List.foldlM_cons, List.foldr_cons, removeFrom?_applyTo hcut, Option.bind_eq_bind,
      Option.bind_some]
    exact ih hsorted.of_cons fun j hj => hplace j (List.mem_cons_of_mem i hj)

/-! ## Lines -/

/-- **A marker between two texts leaves every character on its line**, if it divides no line end. -/
theorem sourceLineAt_literal {before after : List Char} (h : SparesLineEnd before after) (line : Nat) :
    (∀ pos ≤ before.length, sourceLineAt (before ++ (literal line ++ after)) pos =
      sourceLineAt (before ++ after) pos) ∧
    ∀ pos, sourceLineAt (before ++ (literal line ++ after))
        (before.length + ((literal line).length + pos)) =
      sourceLineAt (before ++ after) (before.length + pos) := by
  have hahead : SparesLineEnd before (literal line ++ after) := by
    intro _
    rw [head?_literal_append]
    decide
  have hfeed : '\n' ∉ literal line := notMem_literal line rfl (by decide) (by decide)
  have hreturn : '\r' ∉ literal line := notMem_literal line rfl (by decide) (by decide)
  have hbehind : SparesLineEnd (literal line) after := fun hlast =>
    absurd (List.mem_of_getLast? hlast) hreturn
  constructor
  · intro pos hpos
    rw [sourceLineAt_append_of_le hahead hpos, sourceLineAt_append_of_le h hpos]
  · intro pos
    have hwhole := sourceLineAt_append_add hahead ((literal line).length + pos)
    have hrest := sourceLineAt_append_add hbehind pos
    have hfree := sourceLineAt_append_add h pos
    have hone := sourceLineAt_eq_one hfeed hreturn (literal line).length
    omega

theorem landing_of_forall_lt {cs : List Char} {is : List Insertion} {pos : Nat}
    (h : ∀ i ∈ is, byteLength (cs.take pos) < i.offset) : landing is cs pos = pos := by
  have hnone : (is.filter fun i => i.offset ≤ byteLength (cs.take pos)) = [] := by
    apply List.filter_eq_nil_iff.mpr
    intro i hi
    have hlt := h i hi
    simpa using hlt
  simp [landing, hnone]

/-- **Every character stays on its line**, and markers come between the characters only. -/
theorem landing_spec {cs : List Char} {is : List Insertion}
    (hsorted : is.Pairwise (·.offset ≤ ·.offset)) (hplace : ∀ i ∈ is, i.IsPlace cs) (pos : Nat) :
    (is.foldr applyTo cs)[landing is cs pos]? = cs[pos]? ∧
      sourceLineAt (is.foldr applyTo cs) (landing is cs pos) = sourceLineAt cs pos := by
  induction is with
  | nil => simp [landing]
  | cons i is ih =>
    obtain ⟨before, after, woven, hcs, hoffset, hfold, hwoven⟩ :=
      exists_cutAt?_foldr hsorted hplace
    have hcut : cutAt? i.offset (is.foldr applyTo cs) = some (before, woven) := by
      rw [hfold, ← hoffset, cutAt?_byteLength]
    obtain ⟨hfirst, hsorted⟩ := List.pairwise_cons.mp hsorted
    obtain ⟨hchar, hline⟩ := ih hsorted fun j hj => hplace j (List.mem_cons_of_mem i hj)
    obtain ⟨hahead, hbehind⟩ := sourceLineAt_literal hwoven i.line
    rw [List.foldr_cons, applyTo_eq hcut]
    rw [hfold] at hchar hline
    have hside : i.offset ≤ byteLength (cs.take pos) ↔ before.length ≤ pos := by
      rw [← hoffset, hcs]
      exact byteLength_le_take_iff
    by_cases hle : before.length ≤ pos
    · -- inserted before the character
      obtain ⟨k, hkept⟩ : ∃ k, landing is cs pos = before.length + k :=
        Nat.exists_eq_add_of_le (Nat.le_trans hle (Nat.le_add_right ..))
      have hlanding : landing (i :: is) cs pos = before.length + ((literal i.line).length + k) := by
        have hat := hside.mpr hle
        rw [landing] at hkept
        simp only [landing, List.filter_cons, hat, decide_true, if_true, List.flatMap_cons,
          List.length_append]
        omega
      rw [hkept] at hchar hline
      rw [hlanding, hbehind, hline, ← hchar]
      simp only [List.getElem?_append_right (Nat.le_add_right ..), Nat.add_sub_cancel_left, and_self]
    · -- the character stands before all markers
      have hlt : ∀ j ∈ i :: is, byteLength (cs.take pos) < j.offset := by
        intro j hj
        rcases List.mem_cons.mp hj with rfl | hj
        · exact Nat.lt_of_not_le fun hat => hle (hside.mp hat)
        · exact Nat.lt_of_lt_of_le (Nat.lt_of_not_le fun hat => hle (hside.mp hat)) (hfirst j hj)
      rw [landing_of_forall_lt fun j hj => hlt j (List.mem_cons_of_mem i hj)] at hchar hline
      have hpos : pos < before.length := by omega
      rw [landing_of_forall_lt hlt, hahead pos (Nat.le_of_lt hpos), hline, ← hchar]
      simp only [List.getElem?_append_left hpos, and_self]

/-! ## Insertions in any order -/

theorem splice_eq_foldr (is : List Insertion) (cs : List Char) :
    splice is cs = (is.mergeSort fun a b => b.offset ≤ a.offset).reverse.foldr applyTo cs := by
  rw [splice, List.foldr_reverse]

/-- Markers go into a text in descending order. -/
theorem pairwise_mergeSort_le (is : List Insertion) :
    (is.mergeSort fun a b => b.offset ≤ a.offset).Pairwise (fun a b => b.offset ≤ a.offset) := by
  have : Std.Total (α := Insertion) fun a b => b.offset ≤ a.offset :=
    ⟨fun a b => Nat.le_total b.offset a.offset⟩
  have : IsTrans Insertion fun a b => b.offset ≤ a.offset :=
    ⟨fun _ _ _ hab hbc => Nat.le_trans hbc hab⟩
  exact List.pairwise_mergeSort' (fun a b : Insertion => b.offset ≤ a.offset) is

/-- The order in which markers go into a text is strictly descending if no two go to one place. -/
theorem pairwise_mergeSort_offset {is : List Insertion} (hdistinct : (is.map (·.offset)).Nodup) :
    (is.mergeSort fun a b => b.offset ≤ a.offset).Pairwise (fun a b => b.offset < a.offset) := by
  have hne : (is.mergeSort fun a b => b.offset ≤ a.offset).Pairwise (·.offset ≠ ·.offset) := by
    have hperm := (List.mergeSort_perm is fun a b => b.offset ≤ a.offset).map (·.offset)
    exact List.pairwise_map.mp (hperm.nodup_iff.mpr hdistinct)
  refine ((pairwise_mergeSort_le is).and hne).imp fun {a b} h => ?_
  obtain ⟨hle, hoffset⟩ := h
  omega

theorem landing_perm {is js : List Insertion} (h : is.Perm js) (cs : List Char) (pos : Nat) :
    landing is cs pos = landing js cs pos := by
  rw [landing, landing, ((h.filter _).flatMap_right _).length_eq]

end Insertion

/-! ## Sources with markers -/

namespace Marking

open Insertion

/-- **Markers are inserted all at once.** They may be given in any order, if no two go to one place and each
goes where a token begins. The source with its markers is then what one pass over the source writes. Each
marker finds its place when it goes in. The lines that are told are those of the markers, in ascending
order. Taking the markers away gives the source back, and every character of the source stays on its
line. -/
theorem ofInsertions_eq_weave (source : String) {is : List Insertion}
    (hdistinct : (is.map (·.offset)).Nodup) (htoken : ∀ i ∈ is, i.AtToken source.toList) :
    let code := (ofInsertions source is).code.toList
    let lines := (ofInsertions source is).lines
    (∃ asc : List Insertion, asc.Perm is ∧ asc.Pairwise (·.offset < ·.offset) ∧
      weave? source.toList 0 asc = some code ∧
      asc.foldlM (fun cs i => i.removeFrom? cs) code = some source.toList ∧
      asc.length = lines.length) ∧
    (∀ done i rest, (is.mergeSort fun a b => b.offset ≤ a.offset) = done ++ i :: rest →
      (cutAt? i.offset (done.foldl (fun cs i => i.applyTo cs) source.toList)).isSome) ∧
    (lines.Pairwise (· ≤ ·) ∧ lines.Perm (is.map (·.line))) ∧
    ∀ pos, code[landing is source.toList pos]? = source.toList[pos]? ∧
      sourceLineAt code (landing is source.toList pos) = sourceLineAt source.toList pos := by
  intro code lines
  generalize hdesc : (is.mergeSort fun a b => b.offset ≤ a.offset) = desc
  have hperm : desc.reverse.Perm is :=
    (List.reverse_perm desc).trans (hdesc ▸ List.mergeSort_perm is _)
  have hstrict : desc.reverse.Pairwise (·.offset < ·.offset) :=
    List.pairwise_reverse.mpr (hdesc ▸ pairwise_mergeSort_offset hdistinct)
  have hsorted : desc.reverse.Pairwise (·.offset ≤ ·.offset) := hstrict.imp Nat.le_of_lt
  have hplace : ∀ i ∈ desc.reverse, i.IsPlace source.toList := fun i hi =>
    (htoken i (hperm.mem_iff.mp hi)).isPlace
  have hcode : code = desc.reverse.foldr applyTo source.toList := by
    simp only [code, ofInsertions, String.toList_ofList, splice_eq_foldr, hdesc]
  have hlines : lines.Perm (is.map (·.line)) := List.mergeSort_perm ..
  refine ⟨⟨desc.reverse, hperm, hstrict, ?_, ?_, ?_⟩, ?_, ⟨?_, hlines⟩, ?_⟩
  · obtain ⟨woven, hweave, hfold, -⟩ := exists_foldr_applyTo (List.nil_append _).symm hsorted
      (fun i _ => Nat.zero_le i.offset) fun i hi => (hplace i hi).isCut
    rw [hcode, hfold]
    exact hweave
  · rw [hcode]
    exact foldlM_removeFrom? hsorted hplace
  · rw [hperm.length_eq, hlines.length_eq, List.length_map]
  · intro done i rest hsplit
    rw [hsplit, List.reverse_append, List.reverse_cons, List.append_assoc,
      List.singleton_append] at hsorted hplace
    obtain ⟨before, after, woven, -, hoffset, hfold, -⟩ :=
      exists_cutAt?_foldr (List.pairwise_append.mp hsorted).2.1
        fun j hj => hplace j (List.mem_append_right _ hj)
    rw [← List.foldr_reverse, hfold, ← hoffset, cutAt?_byteLength]
    rfl
  · exact List.pairwise_mergeSort' (· ≤ ·) _
  · intro pos
    rw [hcode, ← landing_perm hperm]
    exact landing_spec hsorted hplace pos

/-- Markers within and beside one another, behind characters of several bytes and behind each kind of line
end, in no order. -/
theorem ofInsertions_eq_weave_nested :
    let source := "const é = '✓';\r\nconsole.log(console.warn(é),\r2);"
    let is : List Insertion := [⟨44, 2⟩, ⟨19, 2⟩, ⟨49, 3⟩, ⟨31, 2⟩]
    let code :=
      "const é = '✓';\r\n\"[LINE_MARKER:2]\", console.log(\"[LINE_MARKER:2]\", " ++
        "console.warn(\"[LINE_MARKER:2]\", é),\r\"[LINE_MARKER:3]\", 2);"
    (is.map (·.offset)).Nodup ∧ (∀ i ∈ is, i.AtToken source.toList) ∧
      ofInsertions source is = ⟨code, [2, 2, 2, 3]⟩ ∧
      (∃ asc : List Insertion, asc.Perm is ∧ asc.Pairwise (·.offset < ·.offset) ∧
        weave? source.toList 0 asc = some code.toList) ∧
      ∀ pos, code.toList[landing is source.toList pos]? = source.toList[pos]? ∧
        sourceLineAt code.toList (landing is source.toList pos) = sourceLineAt source.toList pos := by
  intro source is code
  have hdistinct : (is.map (·.offset)).Nodup := by decide
  have htoken : ∀ i ∈ is, i.AtToken source.toList := by
    simp only [is, List.forall_mem_cons, List.not_mem_nil, false_imp_iff, implies_true, and_true]
    have hscanned : ∀ pos start, (scanToken source.toList.toArray pos).start = start →
        BeginsToken source.toList start := fun pos _ h => h ▸ .scanned pos
    exact ⟨⟨41, by decide, hscanned 41 41 (by decide +kernel), by decide⟩,
      ⟨16, by decide, hscanned 14 16 (by decide +kernel), by decide⟩,
      ⟨45, by decide, hscanned 44 45 (by decide +kernel), by decide⟩,
      ⟨28, by decide, hscanned 28 28 (by decide +kernel), by decide⟩⟩
  have hdesc : (is.mergeSort fun a b => b.offset ≤ a.offset) =
      [⟨49, 3⟩, ⟨44, 2⟩, ⟨31, 2⟩, ⟨19, 2⟩] := by cbv
  have hlines : (is.map (·.line)).mergeSort = [2, 2, 2, 3] := by cbv
  have hcode : ofInsertions source is = ⟨code, [2, 2, 2, 3]⟩ := by
    rw [ofInsertions, splice, hdesc, hlines]
    decide +kernel
  have h := ofInsertions_eq_weave source hdistinct htoken
  rw [hcode] at h
  obtain ⟨⟨asc, hperm, hsorted, hweave, -, -⟩, -, -, hkept⟩ := h
  exact ⟨hdistinct, htoken, hcode, ⟨asc, hperm, hsorted, hweave⟩, hkept⟩

end Marking

end Scratchpad
