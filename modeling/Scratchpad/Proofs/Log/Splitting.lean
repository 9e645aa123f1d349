import Mathlib.Data.List.Induction
import Scratchpad.Log.LineReader

/-!
# Where a stream is cut does not matter

A reader of lines gets its stream in chunks that may end anywhere: within a tag, within a marker, between
a carriage return and a line feed. What it returns depends on the text alone.

The complete lines of a text are the pieces between its line feeds except for the last piece, which is
what stays behind. Everything else follows from one law: the complete lines of two texts in a row are
those of the first, and then those of what the first leaves behind together with the second.

## Main definitions

* `LineReader.entriesSoFar`: the entries of the lines of a text that are ended.
* `LineReader.entriesOf`: the entries of a whole stream.

## Main statements

* `completeLines_append`: the complete lines of two texts in a row.
* `completeLines_eq_splitOn`: the complete lines of a text are its pieces.
* `LineReader.feed_append`, `LineReader.feedAll_eq_feed_join`: a chunk may be cut anywhere.
* `LineReader.feed_cut_anywhere`: what a reader returns for any chunks, and what it keeps.
-/

namespace Scratchpad.Log

/-! ## Complete lines -/

/-- The complete lines of two texts in a row. -/
theorem completeLines_append (xs ys : List Char) :
    completeLines (xs ++ ys) =
      ((completeLines xs).1 ++ (completeLines ((completeLines xs).2 ++ ys)).1,
        (completeLines ((completeLines xs).2 ++ ys)).2) := by
  induction xs with
  | nil => rfl
  | cons c cs ih =>
    rw [List.cons_append, completeLines, ih]
    by_cases hc : c = '\n'
    · simp [completeLines, hc]
    · cases hl : (completeLines cs).1 with
      | cons line lines => simp [completeLines, hc, hl]
      | nil => simp [completeLines, hc, hl]

/-- The complete lines of a text are the pieces between its line feeds, and the last piece stays behind. -/
theorem completeLines_eq_splitOn (cs : List Char) :
    completeLines cs = ((cs.splitOn '\n').dropLast, (cs.splitOn '\n').getLastD []) := by
  induction cs with
  | nil => rfl
  | cons c cs ih =>
    rw [completeLines, ih, List.splitOn_cons_eq_if_modifyHead]
    obtain ⟨piece, pieces, hp⟩ := List.exists_cons_of_ne_nil (List.splitOn_ne_nil '\n' cs)
    by_cases hc : c = '\n'
    · simp [hc, hp]
    · cases pieces with
      | nil => simp [hc, hp]
      | cons next pieces => simp [hc, hp]

/-- What stays behind has no line feed. -/
theorem newline_notMem_rest (cs : List Char) : '\n' ∉ (completeLines cs).2 := by
  induction cs with
  | nil => simp [completeLines]
  | cons c cs ih =>
    rw [completeLines]
    by_cases hc : c = '\n'
    · simpa [hc] using ih
    · cases hl : (completeLines cs).1 with
      | nil => simpa [hc, hl, Ne.symm hc] using ih
      | cons line lines => simpa [hc, hl] using ih

namespace LineReader

/-! ## Chunks -/

/-- **A chunk may be cut in two**, whatever the reader has kept so far. -/
theorem feed_append (r : LineReader) (a b : String) :
    r.feed (a ++ b) = ((r.feed a).1 ++ ((r.feed a).2.feed b).1, ((r.feed a).2.feed b).2) := by
  simp only [feed, String.toList_append, ← List.append_assoc]
  rw [completeLines_append]
  simp

theorem feedAll_nil (r : LineReader) : r.feedAll [] = ([], r) := rfl

theorem feedAll_append_singleton (r : LineReader) (chunks : List String) (chunk : String) :
    r.feedAll (chunks ++ [chunk]) =
      ((r.feedAll chunks).1 ++ ((r.feedAll chunks).2.feed chunk).1,
        ((r.feedAll chunks).2.feed chunk).2) := by
  simp [feedAll]

/-- What is kept for some chunks is taken up by those that follow. -/
theorem feedAll_append (r : LineReader) (chunks more : List String) :
    r.feedAll (chunks ++ more) =
      ((r.feedAll chunks).1 ++ ((r.feedAll chunks).2.feedAll more).1,
        ((r.feedAll chunks).2.feedAll more).2) := by
  induction more using List.reverseRecOn with
  | nil => simp [feedAll_nil]
  | append_singleton more chunk ih =>
    rw [← List.append_assoc, feedAll_append_singleton, ih, feedAll_append_singleton]
    simp

theorem feedAll_cons (r : LineReader) (chunk : String) (chunks : List String) :
    r.feedAll (chunk :: chunks) =
      ((r.feed chunk).1 ++ ((r.feed chunk).2.feedAll chunks).1,
        ((r.feed chunk).2.feedAll chunks).2) :=
  feedAll_append r [chunk] chunks

/-- The entries of an empty chunk are none. -/
theorem feed_empty {r : LineReader} (hr : '\n' ∉ r.pending) : r.feed "" = ([], r) := by
  have hs : r.pending.splitOn '\n' = [r.pending] := List.splitOn_eq_singleton hr
  simp [feed, completeLines_eq_splitOn, hs]

/-- What a reader keeps has no line feed. -/
theorem newline_notMem_feed (r : LineReader) (chunk : String) : '\n' ∉ (r.feed chunk).2.pending :=
  newline_notMem_rest _

/-- **Chunks one after another are one chunk.** -/
theorem feedAll_eq_feed_join {r : LineReader} (hr : '\n' ∉ r.pending) (chunks : List String) :
    r.feedAll chunks = r.feed (String.join chunks) := by
  induction chunks using List.reverseRecOn with
  | nil => rw [feedAll_nil, String.join_nil, feed_empty hr]
  | append_singleton chunks chunk ih =>
    rw [feedAll_append_singleton, ih, String.join_append, String.join_cons, String.join_nil,
      String.append_empty, feed_append]

/-- The entries that a fresh reader returns are those of the pieces of the text. -/
theorem feed_start (matchLines : Bool) (text : String) :
    (start matchLines).feed text =
      ((text.toList.splitOn '\n').dropLast.map (Entry.ofLine matchLines),
        ⟨matchLines, (text.toList.splitOn '\n').getLastD []⟩) := by
  simp [feed, start, completeLines_eq_splitOn]

/-- The entries of the lines of a text that are ended. -/
def entriesSoFar (matchLines : Bool) (text : String) : List Entry :=
  (completeLines text.toList).1.map (Entry.ofLine matchLines)

/-- What a fresh reader returns for chunks, and what it keeps. -/
theorem feedAll_start (matchLines : Bool) (chunks : List String) :
    (start matchLines).feedAll chunks =
      (entriesSoFar matchLines (String.join chunks),
        ⟨matchLines, (completeLines (String.join chunks).toList).2⟩) := by
  rw [feedAll_eq_feed_join (by simp [start])]
  rfl

/-- More text ends more lines, and leaves those alone that are ended. -/
theorem isPrefix_entriesSoFar (matchLines : Bool) (text more : String) :
    entriesSoFar matchLines text <+: entriesSoFar matchLines (text ++ more) := by
  rw [entriesSoFar, entriesSoFar, String.toList_append, completeLines_append, List.map_append]
  exact List.prefix_append _ _

/-! ## The end of the stream -/

/-- The end of the stream makes an entry if anything is kept. -/
theorem isSome_flush (r : LineReader) : r.flush.1.isSome ↔ r.pending ≠ [] := by
  rw [flush]
  cases hp : r.pending <;> simp

theorem flush_snd (r : LineReader) : r.flush.2 = { r with pending := [] } := by
  rw [flush]
  obtain ⟨matchLines, pending⟩ := r
  cases pending <;> rfl

theorem eq_ofLine_of_mem_flush {r : LineReader} {e : Entry} (he : e ∈ r.flush.1) :
    e = Entry.ofLine r.matchLines r.pending := by
  rw [flush] at he
  cases hp : r.pending <;> simp_all

/-- The entries of a whole stream: of its lines, and of what stands behind the last line feed. -/
def entriesOf (matchLines : Bool) (text : String) : List Entry :=
  let (entries, r) := (start matchLines).feed text
  entries ++ r.flush.1.toList

/-- The entries of a stream that arrives in chunks. -/
theorem entriesOf_join (matchLines : Bool) (chunks : List String) :
    entriesOf matchLines (String.join chunks) =
      ((start matchLines).feedAll chunks).1 ++ ((start matchLines).feedAll chunks).2.flush.1.toList := by
  rw [feedAll_eq_feed_join (by simp [start]), entriesOf]

/-- **A stream may be cut anywhere.** A reader in any state returns the same entries for two chunks as for
both at once, and keeps the same. So a fresh reader returns the entries of the pieces between the line
feeds of the whole text except for the last piece, and keeps the last piece, which has no line feed. The
end of the stream makes an entry of what is kept if that is not empty, and leaves nothing. -/
theorem feed_cut_anywhere :
    (∀ (r : LineReader) (a b : String),
      r.feed (a ++ b) = ((r.feed a).1 ++ ((r.feed a).2.feed b).1, ((r.feed a).2.feed b).2)) ∧
    (∀ (matchLines : Bool) (chunks : List String),
      let pieces := (String.join chunks).toList.splitOn '\n'
      (start matchLines).feedAll chunks =
          (pieces.dropLast.map (Entry.ofLine matchLines), ⟨matchLines, pieces.getLastD []⟩) ∧
        '\n' ∉ ((start matchLines).feedAll chunks).2.pending) ∧
    (∀ r : LineReader,
      (r.flush.1.isSome ↔ r.pending ≠ []) ∧
        (∀ e ∈ r.flush.1, e = Entry.ofLine r.matchLines r.pending) ∧
        r.flush.2 = { r with pending := [] }) := by
  refine ⟨feed_append, fun matchLines chunks => ?_, fun r => ?_⟩
  · have hfed : (start matchLines).feedAll chunks = (start matchLines).feed (String.join chunks) :=
      feedAll_eq_feed_join (by simp [start]) chunks
    rw [hfed]
    exact ⟨feed_start matchLines _, newline_notMem_feed _ _⟩
  · exact ⟨isSome_flush r, fun e he => eq_ofLine_of_mem_flush he, flush_snd r⟩

end LineReader

end Scratchpad.Log
