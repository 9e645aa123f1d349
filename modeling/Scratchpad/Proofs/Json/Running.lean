import Scratchpad.Json.Document

/-!
# Readers at work

Where a reader is tells no more than where flaws are found. As long as nothing is wrong, a reader goes from what
stands before it to what stands behind what it has read, and two readers in a row go the way of the first and then
the way of the second.

## Main definitions

* `Reader.Takes`: the value that a reader delivers from a text, and the text to which it goes on.

## Main statements

* `Reader.Takes.bind`: two readers in a row.
* `Reader.takes_next?`, `Reader.takes_hasItem`, `Reader.takes_hasName`: what comes next.
* `Reader.Takes.enclosed`: what stands between brackets.
-/

namespace Scratchpad.Json

/-! ## Cursors -/

namespace Cursor

theorem exists_advance (line column : Nat) (c : Char) (cs : List Char) :
    ∃ line' column', advance ⟨line, column, c :: cs⟩ = ⟨line', column', cs⟩ := by
  simp only [advance]
  split <;> exact ⟨_, _, rfl⟩

theorem exists_skipWhile (p : Char → Bool) (line column : Nat) (cs : List Char) :
    ∃ line' column', skipWhile p ⟨line, column, cs⟩ = ⟨line', column', cs.dropWhile p⟩ := by
  simp only [skipWhile]
  induction cs generalizing line column with
  | nil => exact ⟨line, column, rfl⟩
  | cons c cs ih =>
    by_cases hc : p c
    · obtain ⟨line', column', hadvance⟩ := exists_advance line column c cs
      rw [List.takeWhile_cons_of_pos hc, List.dropWhile_cons_of_pos hc, List.foldl_cons, hadvance]
      exact ih line' column'
    · rw [List.takeWhile_cons_of_neg hc, List.dropWhile_cons_of_neg hc]
      exact ⟨line, column, rfl⟩

end Cursor

namespace Reader

variable {α β : Type} {r : Reader α} {f : α → Reader β} {a : α} {b : β} {c : Char} {cs ds es : List Char}

/-- From a text a reader delivers a value and goes on to another text, wherever in a document it is. -/
def Takes (r : Reader α) (cs : List Char) (a : α) (ds : List Char) : Prop :=
  ∀ line column, ∃ line' column', r.run ⟨line, column, cs⟩ = (.ok a, ⟨line', column', ds⟩)

/-! ## Readers in a row -/

theorem takes_pure (a : α) (cs : List Char) : Takes (pure a) cs a cs := fun line column => ⟨line, column, rfl⟩

theorem run_bind_of_ok {k k' : Cursor} (h : r.run k = (.ok a, k')) : (r >>= f).run k = (f a).run k' := by
  change (ExceptT.bind r f).run k = _
  simp only [ExceptT.bind, ExceptT.run_mk, bind, StateT.bind]
  have hrun : r k = (.ok a, k') := h
  rw [hrun]
  rfl

theorem Takes.bind (hr : Takes r cs a ds) (hf : Takes (f a) ds b es) : Takes (r >>= f) cs b es := by
  intro line column
  obtain ⟨line', column', hr⟩ := hr line column
  obtain ⟨line'', column'', hf⟩ := hf line' column'
  exact ⟨line'', column'', by rw [run_bind_of_ok hr, hf]⟩

theorem Takes.map (hr : Takes r cs a ds) (f : α → β) : Takes (f <$> r) cs (f a) ds := by
  rw [← bind_pure_comp]
  exact hr.bind (takes_pure (f a) ds)

/-! ## Looking and passing -/

theorem takes_rest (cs : List Char) : Takes rest cs cs cs := fun line column => ⟨line, column, rfl⟩

theorem takes_peek? (cs : List Char) : Takes peek? cs cs.head? cs := fun line column => ⟨line, column, rfl⟩

theorem takes_advance (c : Char) (cs : List Char) : Takes advance (c :: cs) () cs := by
  intro line column
  obtain ⟨line', column', hadvance⟩ := Cursor.exists_advance line column c cs
  exact ⟨line', column', by rw [← hadvance]; rfl⟩

theorem takes_skipWhile (p : Char → Bool) (cs : List Char) :
    Takes (modify (Cursor.skipWhile p)) cs () (cs.dropWhile p) := by
  intro line column
  obtain ⟨line', column', hskip⟩ := Cursor.exists_skipWhile p line column cs
  exact ⟨line', column', by rw [← hskip]; rfl⟩

theorem takes_takeWhile (p : Char → Bool) (cs : List Char) :
    Takes (takeWhile p) cs (cs.takeWhile p) (cs.dropWhile p) := by
  intro line column
  obtain ⟨line', column', hskip⟩ := Cursor.exists_skipWhile p line column cs
  exact ⟨line', column', by rw [← hskip]; rfl⟩

/-- A character that is not blank is the next one. -/
theorem takes_next? (h : isBlank c = false) (cs : List Char) : Takes next? (c :: cs) (some c) (c :: cs) := by
  have hskip := takes_skipWhile isBlank (c :: cs)
  rw [List.dropWhile_cons_of_neg (by simp [h])] at hskip
  exact hskip.bind (takes_peek? _)

theorem takes_valueStart (h : isBlank c = false) (cs : List Char) : Takes valueStart (c :: cs) c (c :: cs) :=
  (takes_next? h cs).bind (takes_pure c _)

theorem takes_listEnd (cs : List Char) : Takes listEnd (']' :: cs) () cs :=
  (takes_next? rfl cs).bind (takes_advance _ cs)

theorem takes_objectEnd (cs : List Char) : Takes objectEnd ('\x7d' :: cs) () cs :=
  (takes_next? rfl cs).bind (takes_advance _ cs)

theorem takes_colon (cs : List Char) : Takes colon (':' :: cs) () cs :=
  (takes_next? rfl cs).bind (takes_advance _ cs)

/-! ## What goes on -/

/-- What stands before an item: nothing before the first one, and a comma before all others. -/
def lead (isFirst : Bool) : List Char := if isFirst then [] else [',']

theorem takes_hasItem_none (isFirst : Bool) (cs : List Char) :
    Takes (hasItem isFirst) (']' :: cs) false (']' :: cs) :=
  (takes_next? rfl cs).bind (takes_pure false _)

/-- Where an item begins, an item follows. -/
theorem takes_hasItem (hblank : isBlank c = false) (hclose : c ≠ ']') (isFirst : Bool) (cs : List Char) :
    Takes (hasItem isFirst) (lead isFirst ++ c :: cs) true (c :: cs) := by
  cases isFirst with
  | true =>
    refine (takes_next? hblank cs).bind ?_
    split
    · exact absurd (Option.some.inj ‹_›) hclose
    · rename_i hnext
      cases hnext
      simp only [Bool.not_true, Bool.and_false, Bool.false_eq_true, if_false, if_true]
      exact takes_pure true _
    · cases ‹_›
  | false =>
    refine (takes_next? rfl (c :: cs)).bind ?_
    refine (takes_advance ',' (c :: cs)).bind ((takes_next? hblank cs).bind ?_)
    split
    · exact absurd (Option.some.inj ‹_›) hclose
    · exact takes_pure true _
    · cases ‹_›

theorem takes_hasName_none (isFirst : Bool) (cs : List Char) :
    Takes (hasName isFirst) ('\x7d' :: cs) false ('\x7d' :: cs) :=
  (takes_next? rfl cs).bind (takes_pure false _)

/-- Where a name begins, a name follows. -/
theorem takes_hasName (isFirst : Bool) (cs : List Char) :
    Takes (hasName isFirst) (lead isFirst ++ '"' :: cs) true ('"' :: cs) := by
  cases isFirst with
  | true => exact (takes_next? rfl cs).bind (takes_pure true _)
  | false =>
    exact (takes_next? rfl _).bind ((takes_advance ',' _).bind ((takes_next? rfl cs).bind (takes_pure true _)))

/-! ## Wrapping -/

theorem run_tryCatch_of_ok {handle : Misfit → Reader α} {k k' : Cursor} (h : r.run k = (.ok a, k')) :
    (tryCatch r handle).run k = (.ok a, k') := by
  change (ExceptT.tryCatch r handle).run k = _
  simp only [ExceptT.tryCatch, ExceptT.run_mk, bind, StateT.bind]
  have hrun : r k = (.ok a, k') := h
  rw [hrun]
  rfl

theorem Takes.placed (hr : Takes r cs a ds) : Takes (placed r) cs a ds := by
  intro line column
  obtain ⟨line', column', hr⟩ := hr line column
  exact ⟨line', column', run_tryCatch_of_ok hr⟩

/-- What stands between brackets. -/
theorem Takes.enclosed {close : Reader Unit} {body : Nat → Reader α} {depth : Nat} (hbody : Takes (body depth) cs a ds)
    (hclose : Takes close ds () es) (c : Char) : Takes (enclosed (depth + 1) close body) (c :: cs) a es := by
  have hobserving : ∀ {γ : Type} {r : Reader γ} {cs ds : List Char} {a : γ}, Takes r cs a ds →
      Takes (enclosed.observing r) cs (.ok a) ds := by
    intro γ r cs ds a hr line column
    obtain ⟨line', column', hr⟩ := hr.map Except.ok line column
    exact ⟨line', column', run_tryCatch_of_ok hr⟩
  exact (takes_advance c cs).bind ((hobserving hbody).bind ((hobserving hclose).bind (takes_pure a es)))

end Reader

end Scratchpad.Json
