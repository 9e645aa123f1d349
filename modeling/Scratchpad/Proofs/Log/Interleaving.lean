import Scratchpad.Machine.Course
import Scratchpad.Proofs.Log.Tagging
import Scratchpad.Proofs.Sandbox.Pipe

/-!
# Two streams in one

What a program prints and what it says about that come through two pipes, and are put into one stream as
they come. Through each pipe come whole lines, except that the last line may be without a line feed. So
the lines of one stream stay apart from those of the other, with one exception: if the last chunk of one
stream has no line feed and the other stream goes on, the reader takes both for one line.

## Main definitions

* `Interleave`: a list whose items come from two lists, in the order that they have there.
* `LineReader.read`: the entries of chunks, those of the end included.
* `Entry.ofChunk`: the entry of a chunk by itself.
* `Joins`: where a chunk without a line feed stands in front of another one.

## Main statements

* `LineReader.read_framed`: there is one entry for each chunk if they are framed.
* `framed_or_joins`: chunks of two pipes are framed, or two of them are joined.
* `LineReader.streams_interleave_iff`: the entries of two streams are interleaved unless two chunks are
  joined, and what is read if they are.
* `Machine.Course.interleave_chunks`: a program that ends interleaves the chunks of its pipes.
-/

namespace Scratchpad

variable {α β : Type}

/-! ## Interleaved lists -/

/-- Items of two lists, in the order that they have there. -/
inductive Interleave : List α → List α → List α → Prop
  | nil : Interleave [] [] []
  | left {a : α} {as bs cs : List α} (h : Interleave as bs cs) : Interleave (a :: as) bs (a :: cs)
  | right {b : α} {as bs cs : List α} (h : Interleave as bs cs) : Interleave as (b :: bs) (b :: cs)

namespace Interleave

variable {as bs cs : List α}

theorem nil_left (bs : List α) : Interleave [] bs bs := by
  induction bs with
  | nil => exact .nil
  | cons b bs ih => exact .right ih

theorem swap (h : Interleave as bs cs) : Interleave bs as cs := by
  induction h with
  | nil => exact .nil
  | left _ ih => exact .right ih
  | right _ ih => exact .left ih

theorem eq_of_nil_left (h : Interleave [] bs cs) : cs = bs := by
  induction bs generalizing cs with
  | nil => cases h; rfl
  | cons b bs ih =>
    cases h with
    | right h => rw [ih h]

theorem length_eq (h : Interleave as bs cs) : cs.length = as.length + bs.length := by
  induction h with
  | nil => rfl
  | left _ ih => simp only [List.length_cons, ih]; omega
  | right _ ih => simp only [List.length_cons, ih]; omega

theorem map (f : α → β) (h : Interleave as bs cs) : Interleave (as.map f) (bs.map f) (cs.map f) := by
  induction h with
  | nil => exact .nil
  | left _ ih => exact .left ih
  | right _ ih => exact .right ih

/-- Items of one list may come first. -/
theorem append_left (more : List α) (h : Interleave as bs cs) :
    Interleave (more ++ as) bs (more ++ cs) := by
  induction more with
  | nil => exact h
  | cons a more ih => exact .left ih

end Interleave

namespace Log

open Sandbox

/-! ## Joined chunks -/

/-- Where a chunk without a line feed stands in front of another one. -/
structure Joins (cs before : List String) (u c : String) (after : List String) : Prop where
  eq : cs = before ++ u :: c :: after
  ended : ∀ b ∈ before, Pipe.IsEnded b
  unended : Pipe.IsUnended u
  framed : Pipe.Framed (c :: after)

/-- Behind a chunk without a line feed, whatever follows is joined to it. -/
theorem framed_or_joins_of_unended {u : String} {cs : List String} (hu : Pipe.IsUnended u)
    (hcs : Pipe.Framed cs) :
    Pipe.Framed (u :: cs) ∨ ∃ before v c after, Joins (u :: cs) before v c after := by
  cases cs with
  | nil => exact .inl (.last hu)
  | cons c after => exact .inr ⟨[], u, c, after, rfl, by simp, hu, hcs⟩

/-- A line in front joins nothing. -/
theorem framed_or_joins_cons {b : String} {cs : List String} (hb : Pipe.IsEnded b)
    (h : Pipe.Framed cs ∨ ∃ before u c after, Joins cs before u c after) :
    Pipe.Framed (b :: cs) ∨ ∃ before u c after, Joins (b :: cs) before u c after := by
  rcases h with h | ⟨before, u, c, after, rfl, hended, hu, hframed⟩
  · exact .inl (.line hb h)
  · exact .inr ⟨b :: before, u, c, after, rfl, List.forall_mem_cons.mpr ⟨hb, hended⟩, hu, hframed⟩

/-- **Chunks of two pipes are framed, or two of them are joined.** -/
theorem framed_or_joins {as bs cs : List String} (h : Interleave as bs cs) (has : Pipe.Framed as)
    (hbs : Pipe.Framed bs) :
    Pipe.Framed cs ∨ ∃ before u c after, Joins cs before u c after := by
  induction h with
  | nil => exact .inl .nil
  | left h ih =>
    cases has with
    | line ha has => exact framed_or_joins_cons ha (ih has hbs)
    | last hu =>
      rw [h.eq_of_nil_left]
      exact framed_or_joins_of_unended hu hbs
  | right h ih =>
    cases hbs with
    | line hb hbs => exact framed_or_joins_cons hb (ih has hbs)
    | last hu =>
      rw [h.swap.eq_of_nil_left]
      exact framed_or_joins_of_unended hu has

/-- Two chunks that are joined end as the second of them does. -/
theorem framed_join {u c : String} {after : List String} (hu : Pipe.IsUnended u)
    (h : Pipe.Framed (c :: after)) : Pipe.Framed ((u ++ c) :: after) := by
  cases h with
  | last hc =>
    refine .last ⟨?_, ?_⟩
    · simp [hu.1]
    · simp [hu.2, hc.2]
  | line hc hafter =>
    obtain ⟨line, hline, heq⟩ := hc
    refine .line ⟨u.toList ++ line, ?_, ?_⟩ hafter
    · simp [hu.2, hline]
    · rw [String.toList_append, heq, List.append_assoc]

/-! ## Entries of chunks -/

/-- The entry of a chunk by itself. -/
def Entry.ofChunk (matchLines : Bool) (c : String) : Entry :=
  Entry.ofLine matchLines (c.toList.takeWhile (· != '\n'))

theorem takeWhile_line {line : List Char} (h : '\n' ∉ line) (rest : List Char) :
    (line ++ rest).takeWhile (· != '\n') = line ++ rest.takeWhile (· != '\n') := by
  refine List.takeWhile_append_of_pos fun c hc => ?_
  have hne : c ≠ '\n' := fun heq => h (heq ▸ hc)
  simpa using hne

namespace LineReader

/-- The entries of chunks that arrive one after another, and of the end of the stream. -/
def read (matchLines : Bool) (chunks : List String) : List Entry :=
  let (entries, r) := (start matchLines).feedAll chunks
  entries ++ r.flush.1.toList

theorem read_eq_entriesOf (matchLines : Bool) (chunks : List String) :
    read matchLines chunks = entriesOf matchLines (String.join chunks) :=
  (entriesOf_join matchLines chunks).symm

/-- The entry of a line that is ended comes first, and the rest is read by itself. -/
theorem entriesOf_line (matchLines : Bool) {text rest : String} {line : List Char} (h : '\n' ∉ line)
    (htext : text.toList = line ++ '\n' :: rest.toList) :
    entriesOf matchLines text = Entry.ofLine matchLines line :: entriesOf matchLines rest := by
  simp only [entriesOf, feed, start, List.nil_append, htext, completeLines_line h]
  rfl

theorem entriesOf_unended (matchLines : Bool) {text : String} (h : Pipe.IsUnended text) :
    entriesOf matchLines text = [Entry.ofLine matchLines text.toList] := by
  have hpieces : text.toList.splitOn '\n' = [text.toList] := List.splitOn_eq_singleton h.2
  simp [entriesOf, feed, start, completeLines_eq_splitOn, hpieces, flush, h.1]

/-- **There is one entry for each chunk** if the chunks are framed. -/
theorem read_framed (matchLines : Bool) {cs : List String} (h : Pipe.Framed cs) :
    read matchLines cs = cs.map (Entry.ofChunk matchLines) := by
  rw [read_eq_entriesOf]
  induction h with
  | nil => rfl
  | @last c hc =>
    have hall : c.toList.takeWhile (· != '\n') = c.toList := by
      simpa using takeWhile_line hc.2 []
    rw [String.join_cons, String.join_nil, String.append_empty, entriesOf_unended matchLines hc,
      List.map_singleton, Entry.ofChunk, hall]
  | @line c cs hc _ ih =>
    obtain ⟨line, hline, heq⟩ := hc
    have hbefore : c.toList.takeWhile (· != '\n') = line := by
      simpa [heq] using takeWhile_line hline ['\n']
    have htext : (String.join (c :: cs)).toList = line ++ '\n' :: (String.join cs).toList := by
      simp [heq]
    rw [entriesOf_line matchLines hline htext, ih, List.map_cons, Entry.ofChunk, hbefore]

/-- Chunks that are joined have one entry together. -/
theorem read_of_joins (matchLines : Bool) {cs before after : List String} {u c : String}
    (h : Joins cs before u c after) :
    read matchLines cs = before.map (Entry.ofChunk matchLines) ++
      Entry.ofChunk matchLines (u ++ c) :: after.map (Entry.ofChunk matchLines) := by
  have hframed : Pipe.Framed (before ++ (u ++ c) :: after) :=
    .append h.ended (framed_join h.unended h.framed)
  have hjoin : String.join cs = String.join (before ++ (u ++ c) :: after) := by
    rw [h.eq]
    simp [String.join_append, String.append_assoc]
  rw [read_eq_entriesOf, hjoin, ← read_eq_entriesOf, read_framed matchLines hframed]
  simp

/-! ## Two streams -/

/-- **The lines of two streams are interleaved unless two of them are joined.** Let the chunks of two pipes
come in any order that keeps the order of each. The entries that are read are those of the one pipe and
those of the other, in such an order, if and only if every chunk except the very last one ends a line.
Otherwise a chunk that ends none has one entry together with the chunk behind it, and each of the other
chunks has its own. -/
theorem streams_interleave_iff {output error : List (List UInt8)} {cs : List String}
    (h : Interleave (Pipe.chunks output) (Pipe.chunks error) cs) (matchLines : Bool) :
    ((∀ c ∈ cs.dropLast, '\n' ∈ c.toList) ↔
      Interleave (read matchLines (Pipe.chunks output)) (read matchLines (Pipe.chunks error))
        (read matchLines cs)) ∧
    ((∃ c ∈ cs.dropLast, '\n' ∉ c.toList) →
      ∃ before u c after, cs = before ++ u :: c :: after ∧ '\n' ∉ u.toList ∧
        read matchLines cs = before.map (Entry.ofChunk matchLines) ++
          Entry.ofChunk matchLines (u ++ c) :: after.map (Entry.ofChunk matchLines)) := by
  have houtput : Pipe.Framed (Pipe.chunks output) := Pipe.framed_chunks output
  have herror : Pipe.Framed (Pipe.chunks error) := Pipe.framed_chunks error
  rw [read_framed matchLines houtput, read_framed matchLines herror]
  rcases framed_or_joins h houtput herror with hframed | ⟨before, u, c, after, hjoins⟩
  · have hended : ∀ c ∈ cs.dropLast, '\n' ∈ c.toList :=
      fun c hc => List.mem_of_getLast? (hframed.forall_mem_dropLast c hc)
    rw [read_framed matchLines hframed]
    refine ⟨⟨fun _ => h.map _, fun _ => hended⟩, ?_⟩
    rintro ⟨c, hc, hunended⟩
    exact absurd (hended c hc) hunended
  · have hread := read_of_joins matchLines hjoins
    refine ⟨⟨fun hended => ?_, fun hinterleave => ?_⟩, fun _ => ?_⟩
    · have hmem : u ∈ cs.dropLast := by simp [hjoins.eq, List.dropLast_append_of_ne_nil]
      exact absurd (hended u hmem) hjoins.unended.2
    · have hentries := hinterleave.length_eq
      have hchunks := h.length_eq
      rw [hread] at hentries
      rw [hjoins.eq] at hchunks
      simp only [List.length_append, List.length_cons, List.length_map] at hentries hchunks
      omega
    · exact ⟨before, u, c, after, hjoins.eq, hjoins.unended.2, hread⟩

/-- One stream ends without a line feed, and the line of the other one comes before that or after it. -/
theorem streams_interleave_iff_last :
    let output : List (List UInt8) := [[0x6F, 0x6E, 0x65, 0x0A, 0x74], [0x77, 0x6F]]
    let error : List (List UInt8) := [[0x77, 0x61, 0x72, 0x6E, 0x0A]]
    let apart : List String := ["one\n", "warn\n", "two"]
    let joined : List String := ["one\n", "two", "warn\n"]
    (Interleave (Pipe.chunks output) (Pipe.chunks error) apart ∧
      (∀ c ∈ apart.dropLast, '\n' ∈ c.toList) ∧
      Interleave (read false (Pipe.chunks output)) (read false (Pipe.chunks error)) (read false apart)) ∧
    (Interleave (Pipe.chunks output) (Pipe.chunks error) joined ∧
      (∃ c ∈ joined.dropLast, '\n' ∉ c.toList) ∧
      ∃ before u c after, joined = before ++ u :: c :: after ∧ '\n' ∉ u.toList ∧
        read false joined = before.map (Entry.ofChunk false) ++
          Entry.ofChunk false (u ++ c) :: after.map (Entry.ofChunk false)) ∧
    read false joined = [⟨.log, none, "one"⟩, ⟨.log, none, "twowarn"⟩] := by
  intro output error apart joined
  have houtput : Pipe.chunks output = ["one\n", "two"] := by decide
  have herror : Pipe.chunks error = ["warn\n"] := by decide
  have hapart : Interleave (Pipe.chunks output) (Pipe.chunks error) apart := by
    rw [houtput, herror]
    exact .left (.right (.left .nil))
  have hjoined : Interleave (Pipe.chunks output) (Pipe.chunks error) joined := by
    rw [houtput, herror]
    exact .left (.left (.right .nil))
  have hended : ∀ c ∈ apart.dropLast, '\n' ∈ c.toList := by decide
  have hunended : ∃ c ∈ joined.dropLast, '\n' ∉ c.toList := by decide
  exact ⟨⟨hapart, hended, (streams_interleave_iff hapart false).1.mp hended⟩,
    ⟨hjoined, hunended, (streams_interleave_iff hjoined false).2 hunended⟩, by decide⟩

/-- **A last line without a line feed is joined to the next line of the other stream.** So it is not so
that the entries of two streams are always interleaved. -/
theorem unended_line_is_joined :
    ¬ ∀ (output error : List (List UInt8)) (cs : List String) (matchLines : Bool),
      Interleave (Pipe.chunks output) (Pipe.chunks error) cs →
        Interleave (read matchLines (Pipe.chunks output)) (read matchLines (Pipe.chunks error))
          (read matchLines cs) := by
  intro h
  have hinterleave := h [[0x61]] [[0x62, 0x0A]] ["a", "b\n"] false (.left (.right .nil))
  exact absurd hinterleave.length_eq (by decide)

end LineReader

end Log

/-! ## Programs -/

namespace Machine.Course

open Sandbox

/-- What a program writes to a channel, in the order of time. -/
def written (c : Course) (channel : Channel) : List (List UInt8) :=
  (c.ordered.filter (·.channel = channel)).map (·.bytes)

/-- The chunks of prints and of the end, given what has arrived of a line on each pipe. -/
theorem interleave_chunksFrom (p : Pending) (prints : List Print) :
    let (chunks, rest) := chunksFrom p prints
    Interleave
      (Pipe.chunksFrom p.output ((prints.filter (·.channel = .standardOutput)).map (·.bytes)))
      (Pipe.chunksFrom p.error ((prints.filter (·.channel = .standardError)).map (·.bytes)))
      (chunks.map (·.2) ++ (Pipe.close rest.output ++ Pipe.close rest.error)) := by
  induction prints generalizing p with
  | nil =>
    have herror : Interleave [] (Pipe.close p.error) (Pipe.close p.error) := .nil_left _
    simpa [chunksFrom, Pipe.chunksFrom] using herror.append_left (Pipe.close p.output)
  | cons print prints ih =>
    cases hchannel : print.channel with
    | standardOutput =>
      have hmore := ih { p with output := (Pipe.receive p.output print.bytes).2 }
      have hfirst := hmore.append_left (Pipe.receive p.output print.bytes).1
      simpa [chunksFrom, receive, hchannel, Pipe.chunksFrom, Function.comp_def] using hfirst
    | standardError =>
      have hmore := ih { p with error := (Pipe.receive p.error print.bytes).2 }
      have hfirst := hmore.swap.append_left (Pipe.receive p.error print.bytes).1
      simpa [chunksFrom, receive, hchannel, Pipe.chunksFrom, Function.comp_def] using hfirst.swap

/-- **A program that ends interleaves the chunks of its pipes.** -/
theorem interleave_chunks (c : Course) (h : c.ending ≠ .endless) :
    Interleave (Pipe.chunks (c.written .standardOutput)) (Pipe.chunks (c.written .standardError))
      (c.chunks.map (·.2)) := by
  have hchunks := interleave_chunksFrom ⟨[], []⟩ c.ordered
  cases hending : c.ending with
  | endless => exact absurd hending h
  | exited code => simpa [chunks, hending, written, Pipe.chunks, Function.comp_def] using hchunks
  | signalled => simpa [chunks, hending, written, Pipe.chunks, Function.comp_def] using hchunks

end Machine.Course

end Scratchpad
