import Scratchpad.Proofs.Log.Interleaving

/-!
# What comes of a course

What a program prints comes through its pipes in the order of time, and nothing comes after they have been
closed. If the program prints on one channel only, the chunks that come hold the text of all its bytes, in
whatever fragments the bytes were printed.

## Main definitions

* `Course.output`: the bytes that a program prints, in the order of time.

## Main statements

* `Course.pairwise_chunks`: chunks come in the order of time.
* `Course.time_le_closing`: they come before the pipes are closed.
* `Course.join_chunks`: what the chunks of a program hold that prints on one channel.
-/

namespace Scratchpad.Machine.Course

open Sandbox

variable {c : Course}

/-- The bytes that a program prints, in the order of time. -/
def output (c : Course) : List UInt8 := c.ordered.flatMap (·.bytes)

/-! ## Times -/

/-- What comes through the pipes of a program that ends. -/
theorem chunks_of_ends (hends : c.ending ≠ .endless) :
    c.chunks = (chunksFrom ⟨[], []⟩ c.ordered).1 ++
      (Pipe.close (chunksFrom ⟨[], []⟩ c.ordered).2.output ++
        Pipe.close (chunksFrom ⟨[], []⟩ c.ordered).2.error).map fun s => (c.closing, s) := by
  unfold chunks
  cases hending : c.ending with
  | endless => exact absurd hending hends
  | exited code => rfl
  | signalled => rfl

/-- Chunks come when something is printed, and the last ones when the pipes are closed. -/
theorem exists_chunks (c : Course) :
    ∃ last : List String,
      c.chunks = (chunksFrom ⟨[], []⟩ c.ordered).1 ++ last.map fun s => (c.closing, s) := by
  by_cases hends : c.ending = .endless
  · refine ⟨[], ?_⟩
    rw [chunks, hends]
    exact (List.append_nil _).symm
  · exact ⟨_, chunks_of_ends hends⟩

theorem time_of_mem_receive {p : Pending} {print : Print} {chunk : Nat × String}
    (h : chunk ∈ (receive p print).1) : chunk.1 = print.time := by
  rw [receive] at h
  split at h
  all_goals
    obtain ⟨text, -, rfl⟩ := List.mem_map.mp h
    rfl

/-- A chunk comes when something is printed. -/
theorem exists_print_of_mem_chunksFrom {p : Pending} {prints : List Print} {chunk : Nat × String}
    (h : chunk ∈ (chunksFrom p prints).1) : ∃ print ∈ prints, chunk.1 = print.time := by
  induction prints generalizing p with
  | nil => cases h
  | cons print prints ih =>
    rcases List.mem_append.mp h with hfirst | hrest
    · exact ⟨print, List.mem_cons_self, time_of_mem_receive hfirst⟩
    · obtain ⟨later, hlater, htime⟩ := ih hrest
      exact ⟨later, List.mem_cons_of_mem print hlater, htime⟩

theorem pairwise_chunksFrom {p : Pending} {prints : List Print}
    (h : prints.Pairwise fun a b => a.time ≤ b.time) :
    (chunksFrom p prints).1.Pairwise fun a b => a.1 ≤ b.1 := by
  induction prints generalizing p with
  | nil => exact .nil
  | cons print prints ih =>
    obtain ⟨hfirst, hrest⟩ := List.pairwise_cons.mp h
    refine List.pairwise_append.mpr ⟨?_, ih hrest, ?_⟩
    · refine List.pairwise_of_forall_mem_list fun a ha b hb => ?_
      exact Nat.le_of_eq ((time_of_mem_receive ha).trans (time_of_mem_receive hb).symm)
    · intro a ha b hb
      obtain ⟨later, hlater, htime⟩ := exists_print_of_mem_chunksFrom hb
      rw [time_of_mem_receive ha, htime]
      exact hfirst later hlater

theorem pairwise_ordered (c : Course) : c.ordered.Pairwise fun a b => a.time ≤ b.time := by
  have htrans : ∀ a b d : Print, decide (a.time ≤ b.time) = true → decide (b.time ≤ d.time) = true →
      decide (a.time ≤ d.time) = true := by
    simp only [decide_eq_true_eq]
    omega
  have htotal : ∀ a b : Print, (decide (a.time ≤ b.time) || decide (b.time ≤ a.time)) = true := by
    simp only [Bool.or_eq_true, decide_eq_true_eq]
    omega
  exact (List.pairwise_mergeSort htrans htotal c.prints).imp of_decide_eq_true

theorem le_foldl_max (prints : List Print) (start : Nat) :
    start ≤ prints.foldl (fun t p => max t p.time) start ∧
      ∀ print ∈ prints, print.time ≤ prints.foldl (fun t p => max t p.time) start := by
  induction prints generalizing start with
  | nil => exact ⟨Nat.le_refl start, by simp⟩
  | cons print prints ih =>
    obtain ⟨hstart, hprints⟩ := ih (max start print.time)
    refine ⟨Nat.le_trans (Nat.le_max_left ..) hstart, List.forall_mem_cons.mpr ⟨?_, hprints⟩⟩
    exact Nat.le_trans (Nat.le_max_right ..) hstart

theorem time_le_closing_of_mem {chunk : Nat × String} (h : chunk ∈ (chunksFrom ⟨[], []⟩ c.ordered).1) :
    chunk.1 ≤ c.closing := by
  obtain ⟨print, hprint, htime⟩ := exists_print_of_mem_chunksFrom h
  rw [htime]
  exact (le_foldl_max c.prints c.duration).2 print (List.mem_mergeSort.mp hprint)

/-- **Whatever comes does so before the pipes are closed.** -/
theorem time_le_closing {chunk : Nat × String} (h : chunk ∈ c.chunks) : chunk.1 ≤ c.closing := by
  obtain ⟨last, hlast⟩ := c.exists_chunks
  rw [hlast] at h
  rcases List.mem_append.mp h with hprinted | hclosed
  · exact time_le_closing_of_mem hprinted
  · obtain ⟨text, -, rfl⟩ := List.mem_map.mp hclosed
    exact Nat.le_refl _

/-- **Chunks come in the order of time.** -/
theorem pairwise_chunks (c : Course) : c.chunks.Pairwise fun a b => a.1 ≤ b.1 := by
  obtain ⟨last, hlast⟩ := c.exists_chunks
  rw [hlast]
  refine List.pairwise_append.mpr ⟨pairwise_chunksFrom c.pairwise_ordered, ?_, ?_⟩
  · exact List.pairwise_map.mpr (List.pairwise_of_forall fun _ _ => Nat.le_refl _)
  · intro a ha b hb
    obtain ⟨text, -, rfl⟩ := List.mem_map.mp hb
    exact time_le_closing_of_mem ha

/-! ## Texts -/

/-- **What comes through the pipes is the text of all bytes** of a program that prints on one channel and
ends, in whatever fragments it prints them. -/
theorem join_chunks (hends : c.ending ≠ .endless)
    (h : ∀ print ∈ c.prints, print.channel = .standardOutput) :
    String.join (c.chunks.map (·.2)) = Utf8.decode c.output := by
  have hordered : ∀ print ∈ c.ordered, print.channel = .standardOutput := by
    intro print hprint
    exact h print (List.mem_mergeSort.mp hprint)
  have houtput : (c.written .standardOutput).flatten = c.output := by
    rw [written, List.filter_eq_self.mpr fun print hprint => decide_eq_true (hordered print hprint), output,
      List.flatMap_def]
  have herror : c.written .standardError = [] := by
    rw [written, List.map_eq_nil_iff, List.filter_eq_nil_iff]
    intro print hprint
    simp [hordered print hprint]
  have hchunks := (interleave_chunks c hends).swap
  rw [herror] at hchunks
  rw [hchunks.eq_of_nil_left, Pipe.join_chunks, houtput]

end Scratchpad.Machine.Course
