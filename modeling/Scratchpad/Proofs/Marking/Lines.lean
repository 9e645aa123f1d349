import Scratchpad.Proofs.Marking.Splicing
import Scratchpad.Proofs.Text.Line

/-!
# Lines with markers

A marker holds no line feed, so a text with markers has the lines of the text. A line of it is the line of the text
with the markers that are inserted on it. Every place of the text with markers is that of a character, or it lies
in the markers that are inserted right before one.

## Main definitions

* `Insertion.inserted`: what insertions insert.
* `Insertion.onLine`: the insertions that are made on the line of a position.
* `Insertion.upTo`, `Insertion.rightAt`: the insertions that are made up to a position, and right at it.

## Main statements

* `Insertion.foldr_applyTo_append`: what is inserted into a text leaves what stands behind it alone.
* `Insertion.exists_isLine_foldr`: a line of a text with insertions.
* `Insertion.exists_landing`: the places of a text with insertions.
-/

namespace Scratchpad

open Text

namespace Insertion

variable {cs xs ys zs before line behind : List Char} {is : List Insertion} {i : Insertion} {pos : Nat}

/-- What insertions insert, one after another. -/
def inserted (is : List Insertion) : List Char :=
  is.flatMap fun i => literal i.line

/-- The insertions that are made on the line of a position, where a line feed ends a line. -/
def onLine (cs : List Char) (pos : Nat) (is : List Insertion) : List Insertion :=
  is.filter fun i => (cutAt? i.offset cs).any fun (before, _) => 1 + before.count '\n' == lineAt cs pos

/-- The insertions that are made before a position or at it. -/
def upTo (cs : List Char) (pos : Nat) (is : List Insertion) : List Insertion :=
  is.filter fun i => i.offset ≤ byteLength (cs.take pos)

/-- The insertions that are made right at a position. -/
def rightAt (cs : List Char) (pos : Nat) (is : List Insertion) : List Insertion :=
  is.filter fun i => i.offset = byteLength (cs.take pos)

theorem landing_eq (is : List Insertion) (cs : List Char) (pos : Nat) :
    landing is cs pos = pos + (inserted (upTo cs pos is)).length := rfl

@[simp] theorem inserted_nil : inserted [] = [] := rfl

@[simp] theorem inserted_cons (i : Insertion) (is : List Insertion) :
    inserted (i :: is) = literal i.line ++ inserted is := rfl

@[simp] theorem inserted_append (is js : List Insertion) :
    inserted (is ++ js) = inserted is ++ inserted js := List.flatMap_append

theorem length_inserted_le {js : List Insertion} (h : is.Sublist js) :
    (inserted is).length ≤ (inserted js).length := by
  induction h with
  | slnil => exact Nat.le_refl _
  | cons j _ ih =>
    rw [inserted_cons, List.length_append]
    omega
  | cons_cons j _ ih =>
    rw [inserted_cons, inserted_cons, List.length_append, List.length_append]
    omega

theorem newline_notMem_literal (line : Nat) : '\n' ∉ literal line :=
  notMem_literal line rfl (by decide) (by decide)

theorem length_literal_lt (line : Nat) : 1 < (literal line).length := by
  have hopening : "\"[LINE_MARKER:".toList.length = 14 := rfl
  rw [literal, String.toList_append, String.toList_append, List.length_append, List.length_append, hopening]
  omega

/-- Of the insertions that are picked, those of one kind and those of another are all, if none is of both. -/
theorem length_inserted_filter {p q r : Insertion → Bool} (is : List Insertion)
    (h : ∀ i ∈ is, r i = (p i || q i) ∧ (p i && q i) = false) :
    (inserted (is.filter r)).length =
      (inserted (is.filter p)).length + (inserted (is.filter q)).length := by
  induction is with
  | nil => rfl
  | cons i is ih =>
    have hrest := ih fun j hj => h j (List.mem_cons_of_mem i hj)
    obtain ⟨hr, hpq⟩ := h i List.mem_cons_self
    cases hp : p i <;> cases hq : q i <;> simp_all
    all_goals omega

/-! ## Texts before and behind one another -/

theorem IsCut.of_append (h : i.IsCut (xs ++ ys)) (hle : i.offset ≤ byteLength xs) : i.IsCut xs := by
  obtain ⟨before, after, hcut⟩ := h
  obtain ⟨hcs, hoffset⟩ := cutAt?_eq_some_iff.mp hcut
  obtain ⟨part, hxs, -⟩ := exists_eq_append_of_byteLength_le hcs.symm (hoffset ▸ hle)
  exact ⟨before, part, cutAt?_eq_some_iff.mpr ⟨hxs, hoffset⟩⟩

/-- **What is inserted into a text leaves what stands behind the text alone.** -/
theorem foldr_applyTo_append (hsorted : is.Pairwise (·.offset ≤ ·.offset))
    (hcut : ∀ i ∈ is, i.IsCut xs) (zs : List Char) :
    is.foldr applyTo (xs ++ zs) = is.foldr applyTo xs ++ zs := by
  induction is with
  | nil => rfl
  | cons i is ih =>
    obtain ⟨before, after, hhere⟩ := hcut i List.mem_cons_self
    obtain ⟨hxs, hoffset⟩ := cutAt?_eq_some_iff.mp hhere
    obtain ⟨hfirst, hsorted⟩ := List.pairwise_cons.mp hsorted
    obtain ⟨woven, -, hfold, -⟩ := exists_foldr_applyTo hxs hsorted
      (fun j hj => hoffset ▸ hfirst j hj) fun j hj => hcut j (List.mem_cons_of_mem i hj)
    have hrest := ih hsorted fun j hj => hcut j (List.mem_cons_of_mem i hj)
    have hcut₁ : cutAt? i.offset (is.foldr applyTo xs) = some (before, woven) := by
      rw [hfold, ← hoffset, cutAt?_byteLength]
    have hcut₂ : cutAt? i.offset (is.foldr applyTo xs ++ zs) = some (before, woven ++ zs) := by
      rw [hfold, ← hoffset, List.append_assoc, cutAt?_byteLength]
    rw [List.foldr_cons, List.foldr_cons, hrest, applyTo_eq hcut₁, applyTo_eq hcut₂]
    simp only [List.append_assoc]

theorem length_foldr_applyTo (hsorted : is.Pairwise (·.offset ≤ ·.offset))
    (hcut : ∀ i ∈ is, i.IsCut cs) :
    (is.foldr applyTo cs).length = cs.length + (inserted is).length := by
  induction is with
  | nil => rfl
  | cons i is ih =>
    obtain ⟨before, after, hhere⟩ := hcut i List.mem_cons_self
    obtain ⟨hcs, hoffset⟩ := cutAt?_eq_some_iff.mp hhere
    obtain ⟨hfirst, hsorted⟩ := List.pairwise_cons.mp hsorted
    obtain ⟨woven, -, hfold, -⟩ := exists_foldr_applyTo hcs hsorted
      (fun j hj => hoffset ▸ hfirst j hj) fun j hj => hcut j (List.mem_cons_of_mem i hj)
    have hrest := ih hsorted fun j hj => hcut j (List.mem_cons_of_mem i hj)
    have hcut' : cutAt? i.offset (is.foldr applyTo cs) = some (before, woven) := by
      rw [hfold, ← hoffset, cutAt?_byteLength]
    rw [hfold, List.length_append] at hrest
    rw [List.foldr_cons, applyTo_eq hcut', inserted_cons]
    simp only [List.length_append]
    omega

/-- No line feed is inserted. -/
theorem count_foldr_applyTo (is : List Insertion) (cs : List Char) :
    (is.foldr applyTo cs).count '\n' = cs.count '\n' := by
  induction is with
  | nil => rfl
  | cons i is ih =>
    rw [List.foldr_cons, ← ih]
    cases hcut : cutAt? i.offset (is.foldr applyTo cs) with
    | none => rw [applyTo, hcut]
    | some parts =>
      obtain ⟨before, after⟩ := parts
      have hnone : (literal i.line).count '\n' = 0 := List.count_eq_zero.mpr (newline_notMem_literal i.line)
      rw [applyTo_eq hcut, (cutAt?_eq_some_iff.mp hcut).1]
      simp only [List.count_append, hnone, Nat.zero_add]

/-- Insertions in ascending order are those before an offset and then those at it or behind it. -/
theorem exists_append_of_sorted (hsorted : is.Pairwise (·.offset ≤ ·.offset)) (n : Nat) :
    ∃ early late, is = early ++ late ∧ (∀ i ∈ early, i.offset < n) ∧ ∀ i ∈ late, n ≤ i.offset := by
  induction is with
  | nil => exact ⟨[], [], rfl, by simp, by simp⟩
  | cons i is ih =>
    obtain ⟨hfirst, hsorted⟩ := List.pairwise_cons.mp hsorted
    by_cases hi : i.offset < n
    · obtain ⟨early, late, rfl, hearly, hlate⟩ := ih hsorted
      exact ⟨i :: early, late, rfl, List.forall_mem_cons.mpr ⟨hi, hearly⟩, hlate⟩
    · have hi := Nat.le_of_not_lt hi
      refine ⟨[], i :: is, rfl, by simp, List.forall_mem_cons.mpr ⟨hi, fun j hj => ?_⟩⟩
      exact Nat.le_trans hi (hfirst j hj)

/-! ## Lines of a text with insertions -/

theorem offset_le_take_iff {after : List Char} (hcut : cutAt? i.offset cs = some (before, after)) :
    i.offset ≤ byteLength (cs.take pos) ↔ before.length ≤ pos := by
  obtain ⟨rfl, hoffset⟩ := cutAt?_eq_some_iff.mp hcut
  rw [← hoffset]
  exact byteLength_le_take_iff

theorem weave?_nil (before line : List Char) :
    weave? (before ++ line) (byteLength before) [] = some line := by
  have hall := cutAt?_byteLength (before ++ line) []
  rw [List.append_nil] at hall
  exact between?_eq hall

/-- A position on a line is between its ends, in bytes as well. -/
theorem byteLength_take_of_isLine (h : IsLine cs before line behind) (hle : before.length ≤ pos)
    (hge : pos ≤ before.length + line.length) :
    byteLength before ≤ byteLength (cs.take pos) ∧
      byteLength (cs.take pos) ≤ byteLength (before ++ line) := by
  have hline := congrArg byteLength (List.take_append_drop (pos - before.length) line)
  rw [byteLength_append] at hline
  rw [h.take_eq hle hge, byteLength_append, byteLength_append]
  omega

/-- The insertions on a line are those at its beginning or behind it and not behind its end. -/
theorem isOnLine_iff (h : IsLine cs before line behind) (hcut : i.IsCut cs)
    (hle : before.length ≤ pos) (hge : pos ≤ before.length + line.length) :
    ((cutAt? i.offset cs).any fun (before, _) => 1 + before.count '\n' == lineAt cs pos) = true ↔
      byteLength before ≤ i.offset ∧ i.offset ≤ byteLength (before ++ line) := by
  obtain ⟨front, rest, hhere⟩ := hcut
  obtain ⟨hcs, hoffset⟩ := cutAt?_eq_some_iff.mp hhere
  have hfront : cs.take front.length = front := by rw [hcs, List.take_left]
  have hline : lineAt cs front.length = 1 + front.count '\n' := by rw [lineAt, hfront]
  have hbegin : byteLength before ≤ i.offset ↔ before.length ≤ front.length := by
    have hat := @byteLength_le_take_iff before (line ++ behind) front.length
    rwa [← h.eq_append, hfront, hoffset] at hat
  have hend : i.offset ≤ byteLength (before ++ line) ↔ front.length ≤ before.length + line.length := by
    rw [← offset_le_take_iff hhere, h.eq_append, ← List.append_assoc, ← List.length_append, List.take_left]
  have hlength : front.length ≤ cs.length := by
    rw [hcs, List.length_append]
    omega
  rw [hhere, Option.any_some, beq_iff_eq, ← hline, h.lineAt_eq hle hge, h.lineAt_eq_iff hlength, hbegin, hend]

/-- Insertions in ascending order are those before a line, those on it and those behind it. -/
theorem exists_parts (h : IsLine cs before line behind) (hsorted : is.Pairwise (·.offset ≤ ·.offset))
    (hcut : ∀ i ∈ is, i.IsCut cs) (hle : before.length ≤ pos) (hge : pos ≤ before.length + line.length) :
    ∃ early own late, is = early ++ (own ++ late) ∧ onLine cs pos is = own ∧
      upTo cs pos is = early ++ upTo cs pos own ∧ (∀ i ∈ early, i.offset < byteLength before) ∧
      (∀ i ∈ own, byteLength before ≤ i.offset ∧ i.offset ≤ byteLength (before ++ line)) ∧
      ∀ i ∈ late, byteLength (before ++ line) < i.offset := by
  obtain ⟨early, others, rfl, hearly, hothers⟩ := exists_append_of_sorted hsorted (byteLength before)
  obtain ⟨own, late, rfl, hown, hlate⟩ := exists_append_of_sorted
    (List.pairwise_append.mp hsorted).2.1 (byteLength (before ++ line) + 1)
  obtain ⟨hpos, hpos'⟩ := byteLength_take_of_isLine h hle hge
  simp only [List.forall_mem_append] at hcut hothers
  obtain ⟨hcutEarly, hcutOwn, hcutLate⟩ := hcut
  refine ⟨early, own, late, rfl, ?_, ?_, hearly, fun i hi => ⟨hothers.1 i hi, Nat.le_of_lt_succ (hown i hi)⟩,
    hlate⟩
  · rw [onLine, List.filter_append, List.filter_append,
      List.filter_eq_nil_iff.mpr fun i hi hon => ?_, List.filter_eq_self.mpr fun i hi => ?_,
      List.filter_eq_nil_iff.mpr fun i hi hon => ?_, List.nil_append, List.append_nil]
    · have hat := (isOnLine_iff h (hcutLate i hi) hle hge).mp hon
      exact absurd hat.2 (Nat.not_le_of_gt (hlate i hi))
    · exact (isOnLine_iff h (hcutOwn i hi) hle hge).mpr ⟨hothers.1 i hi, Nat.le_of_lt_succ (hown i hi)⟩
    · have hat := (isOnLine_iff h (hcutEarly i hi) hle hge).mp hon
      exact absurd hat.1 (Nat.not_le_of_gt (hearly i hi))
  · rw [upTo, upTo, List.filter_append, List.filter_append, List.filter_eq_self.mpr fun i hi => ?_,
      (List.filter_eq_nil_iff (l := late)).mpr fun i hi hat => ?_, List.append_nil]
    · have hlt := hlate i hi
      simp only [decide_eq_true_iff] at hat
      omega
    · have hlt := hearly i hi
      simp only [decide_eq_true_iff]
      omega

/-- Insertions behind the end of a line leave it alone, and what stands behind it still begins with a line
feed. -/
theorem exists_foldr_behind (h : IsLine cs before line behind) (hsorted : is.Pairwise (·.offset ≤ ·.offset))
    (hcut : ∀ i ∈ is, i.IsCut cs) (hlate : ∀ i ∈ is, byteLength (before ++ line) < i.offset) :
    ∃ behind', is.foldr applyTo cs = (before ++ line) ++ behind' ∧ (behind' = [] ↔ behind = []) ∧
      ∀ c, behind'.head? = some c → c = '\n' := by
  have hcs : cs = (before ++ line) ++ behind := by rw [h.eq_append, List.append_assoc]
  cases behind with
  | nil =>
    obtain rfl : is = [] := by
      refine List.eq_nil_iff_forall_not_mem.mpr fun i hi => ?_
      obtain ⟨front, rest, hhere⟩ := hcut i hi
      obtain ⟨hparts, hoffset⟩ := cutAt?_eq_some_iff.mp hhere
      have hle := hlate i hi
      have hlength := congrArg byteLength (hcs.symm.trans hparts)
      rw [List.append_nil, byteLength_append front] at hlength
      omega
    exact ⟨[], hcs, Iff.rfl, by simp⟩
  | cons c rest =>
    obtain rfl : c = '\n' := h.behind_begins c rfl
    have hcs' : cs = (before ++ line ++ ['\n']) ++ rest := by rw [hcs, List.append_assoc _ _ rest]; rfl
    have hfeed : '\n'.utf8Size = 1 := by decide
    obtain ⟨woven, -, hfold, -⟩ := exists_foldr_applyTo hcs' hsorted
      (fun i hi => by
        rw [byteLength_append, byteLength_cons, hfeed]
        exact hlate i hi) hcut
    exact ⟨'\n' :: woven, by rw [hfold, List.append_assoc]; rfl, by simp, by simp⟩

/-- Insertions before the end of what stands before a line leave the line feed at its end in place. -/
theorem foldr_applyTo_ends (hends : ∀ c, before.getLast? = some c → c = '\n')
    (hsorted : is.Pairwise (·.offset ≤ ·.offset)) (hcut : ∀ i ∈ is, i.IsCut before)
    (hearly : ∀ i ∈ is, i.offset < byteLength before) :
    ∀ c, (is.foldr applyTo before).getLast? = some c → c = '\n' := by
  rcases List.eq_nil_or_concat before with rfl | ⟨front, c, rfl⟩
  · obtain rfl : is = [] := List.eq_nil_iff_forall_not_mem.mpr fun i hi => Nat.not_lt_zero _ (hearly i hi)
    exact hends
  · rw [List.concat_eq_append] at *
    obtain rfl : c = '\n' := hends c (by simp)
    have hfeed : '\n'.utf8Size = 1 := by decide
    have hfront : ∀ i ∈ is, i.IsCut front := fun i hi => by
      have hlt := hearly i hi
      rw [byteLength_append, byteLength_cons, byteLength_nil, hfeed] at hlt
      exact (hcut i hi).of_append (by omega)
    rw [foldr_applyTo_append hsorted hfront]
    simp

/-- **A line of a text with insertions** is the line with the insertions that are made on it. -/
theorem exists_isLine_foldr (h : IsLine cs before line behind)
    (hsorted : is.Pairwise (·.offset ≤ ·.offset)) (hcut : ∀ i ∈ is, i.IsCut cs)
    (hle : before.length ≤ pos) (hge : pos ≤ before.length + line.length) :
    ∃ before' line' behind', IsLine (is.foldr applyTo cs) before' line' behind' ∧
      before'.count '\n' = before.count '\n' ∧ (behind' = [] ↔ behind = []) ∧
      weave? (before ++ line) (byteLength before) (onLine cs pos is) = some line' ∧
      line'.length = line.length + (inserted (onLine cs pos is)).length ∧
      landing is cs pos =
        before'.length + (pos - before.length) + (inserted (upTo cs pos (onLine cs pos is))).length := by
  obtain ⟨early, own, late, rfl, honLine, hupTo, hearly, hown, hlate⟩ := exists_parts h hsorted hcut hle hge
  obtain ⟨hsortedEarly, hsortedOthers, -⟩ := List.pairwise_append.mp hsorted
  obtain ⟨hsortedOwn, hsortedLate, -⟩ := List.pairwise_append.mp hsortedOthers
  simp only [List.forall_mem_append] at hcut
  obtain ⟨hcutEarly, hcutOwn, hcutLate⟩ := hcut
  have hcs : cs = before ++ line ++ behind := by rw [h.eq_append, List.append_assoc]
  rw [honLine]
  obtain ⟨behind', hfoldLate, hnil, hbegins⟩ := exists_foldr_behind h hsortedLate hcutLate hlate
  have hcutLine : ∀ i ∈ own, i.IsCut (before ++ line) := fun i hi =>
    (hcs ▸ hcutOwn i hi).of_append (hown i hi).2
  obtain ⟨line', hweave, hfoldOwn, -⟩ :=
    exists_foldr_applyTo rfl hsortedOwn (fun i hi => (hown i hi).1) hcutLine
  have hcutBefore : ∀ i ∈ early, i.IsCut before := fun i hi =>
    (h.eq_append ▸ hcutEarly i hi).of_append (Nat.le_of_lt (hearly i hi))
  have hfold : (early ++ (own ++ late)).foldr applyTo cs =
      early.foldr applyTo before ++ (line' ++ behind') := by
    rw [List.foldr_append, List.foldr_append, hfoldLate, foldr_applyTo_append hsortedOwn hcutLine, hfoldOwn,
      List.append_assoc, foldr_applyTo_append hsortedEarly hcutBefore]
  have hlengthBefore := length_foldr_applyTo hsortedEarly hcutBefore
  have hlengthLine := length_foldr_applyTo hsortedOwn hcutLine
  have hcountLine := count_foldr_applyTo own (before ++ line)
  rw [hfoldOwn] at hlengthLine hcountLine
  simp only [List.length_append, List.count_append] at hlengthLine hcountLine
  have hfree : line.count '\n' = 0 := List.count_eq_zero.mpr h.newline_notMem
  refine ⟨early.foldr applyTo before, line', behind', ⟨hfold, ?_, ?_, hbegins⟩,
    count_foldr_applyTo early before, hnil, hweave, by omega, ?_⟩
  · exact foldr_applyTo_ends h.before_ends hsortedEarly hcutBefore hearly
  · exact List.count_eq_zero.mp (by omega)
  · rw [landing_eq, hupTo, inserted_append, List.length_append]
    omega

/-! ## Places -/

/-- A step further more insertions have been passed by: those that are made right there. -/
theorem length_inserted_upTo_succ (hcut : ∀ i ∈ is, i.IsCut cs) (hpos : pos < cs.length) :
    (inserted (upTo cs (pos + 1) is)).length =
      (inserted (upTo cs pos is)).length + (inserted (rightAt cs (pos + 1) is)).length := by
  refine length_inserted_filter is fun i hi => ?_
  obtain ⟨front, rest, hhere⟩ := hcut i hi
  obtain ⟨hcs, hoffset⟩ := cutAt?_eq_some_iff.mp hhere
  have hfront : cs.take front.length = front := by rw [hcs, List.take_left]
  have hge : byteLength (cs.take (pos + 1)) ≤ i.offset ↔ pos + 1 ≤ front.length := by
    have hat := @byteLength_le_take_iff (cs.take (pos + 1)) (cs.drop (pos + 1)) front.length
    rwa [List.take_append_drop, hfront, hoffset, List.length_take, Nat.min_eq_left hpos] at hat
  have hle : i.offset ≤ byteLength (cs.take pos) ↔ front.length ≤ pos := offset_le_take_iff hhere
  have hle' : i.offset ≤ byteLength (cs.take (pos + 1)) ↔ front.length ≤ pos + 1 := offset_le_take_iff hhere
  rw [Bool.eq_iff_iff]
  simp only [Bool.or_eq_true, decide_eq_true_iff, Bool.and_eq_false_iff, decide_eq_false_iff_not]
  omega

/-- **Every place of a text with insertions** is that of a character of the text, or of the end of the text, or it
lies in what is inserted right before. -/
theorem exists_landing (hcut : ∀ i ∈ is, i.IsCut cs) {pos' : Nat}
    (hpos' : pos' ≤ cs.length + (inserted is).length) :
    ∃ pos k, pos ≤ cs.length ∧ pos' + k = landing is cs pos ∧ k ≤ (inserted (rightAt cs pos is)).length := by
  have hall : upTo cs cs.length is = is := List.filter_eq_self.mpr fun i hi => by
    obtain ⟨front, rest, hhere⟩ := hcut i hi
    have hlength := congrArg List.length (cutAt?_eq_some_iff.mp hhere).1
    rw [List.length_append] at hlength
    rw [decide_eq_true_iff, offset_le_take_iff hhere]
    omega
  have hsearch : ∀ pos ≤ cs.length, pos' ≤ landing is cs pos → ∃ pos k, pos ≤ cs.length ∧
      pos' + k = landing is cs pos ∧ k ≤ (inserted (rightAt cs pos is)).length := by
    intro pos hpos hle
    induction pos with
    | zero =>
      have hzero : rightAt cs 0 is = upTo cs 0 is := List.filter_congr fun i _ =>
        decide_eq_decide.mpr Nat.le_zero.symm
      refine ⟨0, landing is cs 0 - pos', hpos, by omega, ?_⟩
      rw [hzero]
      rw [landing_eq] at hle ⊢
      omega
    | succ pos ih =>
      by_cases hbefore : pos' ≤ landing is cs pos
      · exact ih (Nat.le_of_succ_le hpos) hbefore
      · have hstep := length_inserted_upTo_succ hcut hpos
        refine ⟨pos + 1, landing is cs (pos + 1) - pos', hpos, by omega, ?_⟩
        rw [landing_eq] at hle hbefore ⊢
        omega
  refine hsearch cs.length (Nat.le_refl _) ?_
  rwa [landing_eq, hall]

end Insertion

end Scratchpad
