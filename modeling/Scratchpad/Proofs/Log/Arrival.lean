import Scratchpad.Proofs.Log.Batching
import Scratchpad.Proofs.Log.Splitting

/-!
# When entries arrive

A chunk is read at a time, and that is the time at which the entries of the lines that it ends arrive. Entries
that have arrived are collected until there are enough of them or a deadline has come. If the deadline is never
later than an interval after the oldest collected entry has arrived, and nothing is read once it has come, then
nothing is ever read an interval or more after that entry.

## Main definitions

* `LineReader.arrivals`: the entries of chunks, each with the time of the chunk that ends its line.
* `Collected`: what is collected are the last entries that have arrived, and the deadline is kept for them.

## Main statements

* `LineReader.map_snd_arrivals`: when chunks are read does not bear on what they say.
* `Collected.push`, `Collected.tick`: reading a chunk before the deadline and delivering keep it so.
-/

namespace Scratchpad.Log

namespace LineReader

/-- The entries of chunks that are read at times, each with the time of the chunk that ends its line. -/
def arrivals (r : LineReader) : List (Nat × String) → List (Nat × Entry) × LineReader
  | [] => ([], r)
  | (time, chunk) :: reads =>
    let (entries, r) := r.feed chunk
    let (more, r) := r.arrivals reads
    (entries.map (time, ·) ++ more, r)

/-- What arrives with some chunks and then with others. -/
theorem arrivals_append (r : LineReader) (reads more : List (Nat × String)) :
    r.arrivals (reads ++ more) =
      ((r.arrivals reads).1 ++ ((r.arrivals reads).2.arrivals more).1,
        ((r.arrivals reads).2.arrivals more).2) := by
  induction reads generalizing r with
  | nil => rfl
  | cons read reads ih =>
    obtain ⟨time, chunk⟩ := read
    simp only [List.cons_append, arrivals, ih, List.append_assoc]

theorem arrivals_append_singleton (r : LineReader) (reads : List (Nat × String)) (time : Nat)
    (chunk : String) :
    r.arrivals (reads ++ [(time, chunk)]) =
      ((r.arrivals reads).1 ++ ((r.arrivals reads).2.feed chunk).1.map (time, ·),
        ((r.arrivals reads).2.feed chunk).2) := by
  rw [arrivals_append]
  simp [arrivals]

/-- **When chunks are read does not bear on what they say.** -/
theorem map_snd_arrivals (r : LineReader) (reads : List (Nat × String)) :
    ((r.arrivals reads).1.map Prod.snd, (r.arrivals reads).2) = r.feedAll (reads.map Prod.snd) := by
  induction reads generalizing r with
  | nil => rfl
  | cons read reads ih =>
    obtain ⟨time, chunk⟩ := read
    rw [List.map_cons, feedAll_cons, ← ih]
    simp [arrivals, Function.comp_def]

end LineReader

/-- What is collected are the last entries of what has been read. None of them has to wait for the deadline
longer than an interval, and nothing has been read an interval or more after one of them. -/
def Collected (interval deadline : Nat) (matchLines : Bool) (reads : List (Nat × String))
    (reader : LineReader) (batcher : Batcher Entry) : Prop :=
  ∃ earlier recent, (LineReader.start matchLines).arrivals reads = (earlier ++ recent, reader) ∧
    recent.map Prod.snd = batcher.queue ∧
    ∀ x ∈ recent, deadline ≤ x.1 + interval ∧ ∀ read ∈ reads, read.1 < x.1 + interval

namespace Collected

variable {interval deadline now : Nat} {matchLines : Bool} {reads : List (Nat × String)}
  {reader : LineReader} {batcher : Batcher Entry}

/-- Before anything has been read, nothing is collected. -/
theorem start (interval deadline : Nat) (matchLines : Bool) (mark : Nat) :
    Collected interval deadline matchLines [] (.start matchLines) (.ofMark mark) :=
  ⟨[], [], rfl, rfl, by simp⟩

/-- What is kept for a deadline is kept for any that comes sooner. -/
theorem mono (h : Collected interval deadline matchLines reads reader batcher) {deadline' : Nat}
    (hle : deadline' ≤ deadline) : Collected interval deadline' matchLines reads reader batcher := by
  obtain ⟨earlier, recent, hreads, hqueue, hrecent⟩ := h
  exact ⟨earlier, recent, hreads, hqueue, fun x hx => ⟨Nat.le_trans hle (hrecent x hx).1, (hrecent x hx).2⟩⟩

/-- When nothing is collected, any deadline will do. -/
theorem of_queue_eq_nil (h : Collected interval deadline matchLines reads reader batcher)
    {batcher' : Batcher Entry} (hqueue : batcher'.queue = []) (deadline' : Nat) :
    Collected interval deadline' matchLines reads reader batcher' := by
  obtain ⟨earlier, recent, hreads, -, -⟩ := h
  exact ⟨earlier ++ recent, [], by simpa using hreads, hqueue.symm, by simp⟩

/-- **What has been collected is delivered, and the next deadline is open.** -/
theorem tick (h : Collected interval deadline matchLines reads reader batcher) (deadline' : Nat) :
    Collected interval deadline' matchLines reads reader batcher.tick.2 :=
  h.of_queue_eq_nil batcher.queue_tick deadline'

/-- **A chunk is read before the deadline comes.** -/
theorem push (h : Collected interval deadline matchLines reads reader batcher) (hlt : now < deadline)
    (hle : deadline ≤ now + interval) (hpast : ∀ read ∈ reads, read.1 ≤ now) (chunk : String) :
    Collected interval deadline matchLines (reads ++ [(now, chunk)]) (reader.feed chunk).2
      (batcher.push (reader.feed chunk).1).2 := by
  obtain ⟨earlier, recent, hreads, hqueue, hrecent⟩ := h
  have harrived : (LineReader.start matchLines).arrivals (reads ++ [(now, chunk)]) =
      (earlier ++ (recent ++ (reader.feed chunk).1.map (now, ·)), (reader.feed chunk).2) := by
    rw [LineReader.arrivals_append_singleton, hreads, List.append_assoc]
  rcases batcher.queue_push_cases (reader.feed chunk).1 with hkept | hempty
  · refine ⟨earlier, _, harrived, by simp [hkept, hqueue, Function.comp_def], ?_⟩
    intro x hx
    rw [List.forall_mem_append, List.forall_mem_singleton]
    rcases List.mem_append.mp hx with hx | hx
    · -- an entry that was collected before
      obtain ⟨hdeadline, hbefore⟩ := hrecent x hx
      exact ⟨hdeadline, hbefore, by dsimp only; omega⟩
    · obtain ⟨entry, -, rfl⟩ := List.mem_map.mp hx
      refine ⟨hle, fun read hread => ?_, by dsimp only; omega⟩
      have hread' := hpast read hread
      dsimp only
      omega
  · -- enough entries
    exact ⟨_, [], by rw [harrived, List.append_nil], hempty.symm, by simp⟩

end Collected

end Scratchpad.Log
