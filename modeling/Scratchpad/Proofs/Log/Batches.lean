import Mathlib.Data.List.Induction
import Scratchpad.Proofs.Basic
import Scratchpad.Proofs.Log.Batching

/-!
# Everything that is pushed is delivered once

A batcher is pushed to, ticks and is drained, in any order and as often as one likes. Its batches, one after
another, and then what it still collects are at any time all that has been pushed so far.

## Main definitions

* `Batcher.Operation`, `Batcher.perform`: what is done with a batcher.
* `Batcher.after`, `Batcher.batches`: a batcher after some operations, and the batches that they delivered.

## Main statements

* `Batcher.eq_of_push`, `Batcher.eq_of_tick`: what a batch is made of.
* `Batcher.perform_flows`, `Batcher.batches_flow`: what is delivered and then what is kept, for one operation
  and for many.
* `Batcher.exactly_once_in_order`: the account of all operations.
-/

namespace Scratchpad.Log

namespace Batcher

variable {α : Type}

/-- What is done with a batcher. -/
inductive Operation (α : Type) where
  | push (items : List α)
  | tick
  | drain
deriving DecidableEq, Inhabited, Repr

/-- The items that an operation brings. -/
def Operation.items : Operation α → List α
  | push items => items
  | tick | drain => []

/-- Does something with a batcher. -/
def perform (b : Batcher α) : Operation α → Option (List α) × Batcher α
  | .push items => b.push items
  | .tick => b.tick
  | .drain => b.drain

/-! ## One operation -/

section

variable {b : Batcher α} {items batch : List α}

/-- A push delivers what has been collected and what is pushed, when that is enough. -/
theorem eq_of_push (h : (b.push items).1 = some batch) :
    batch = b.queue ++ items ∧ b.mark ≤ batch.length := by
  rw [push] at h
  split at h
  · cases h
  · rename_i hfull
    cases h
    exact ⟨rfl, Nat.le_of_not_lt hfull⟩

/-- A push that reaches the mark leaves nothing behind. -/
theorem queue_push_of_le (h : b.mark ≤ (b.queue ++ items).length) : (b.push items).2.queue = [] := by
  rw [push, dif_neg (Nat.not_lt.mpr h)]
  rfl

/-- A tick delivers what has been collected, when that is anything. -/
theorem eq_of_tick (h : b.tick.1 = some batch) : batch = b.queue ∧ batch ≠ [] := by
  rw [tick] at h
  split at h
  · cases h
  · rename_i hany
    cases h
    exact ⟨rfl, fun hnil => hany (List.isEmpty_iff.mpr hnil)⟩

variable (b)

@[simp] theorem mark_perform (op : Operation α) : (b.perform op).2.mark = b.mark := by
  cases op with
  | push items => exact b.mark_push items
  | tick => exact b.mark_tick
  | drain => exact b.mark_tick

/-- An operation delivers or keeps what has been collected and what it brings. -/
theorem perform_flows (op : Operation α) :
    (b.perform op).1.toList.flatten ++ (b.perform op).2.queue = b.queue ++ op.items := by
  have hflatten : ∀ o : Option (List α), o.toList.flatten = o.getD [] := by
    rintro (_ | batch) <;> simp
  rw [hflatten]
  cases op with
  | push items => exact b.push_flows items
  | tick => exact b.tick_flows.trans (List.append_nil _).symm
  | drain => exact b.tick_flows.trans (List.append_nil _).symm

/-- No batch is empty, because no batcher is full. -/
theorem ne_nil_of_mem_perform {op : Operation α} (h : batch ∈ (b.perform op).1.toList) : batch ≠ [] := by
  have hsome := Option.mem_toList.mp h
  cases op with
  | push items =>
    obtain ⟨-, hle⟩ := eq_of_push hsome
    exact List.ne_nil_of_length_pos (Nat.lt_of_lt_of_le (Nat.zero_lt_of_lt b.length_lt_mark) hle)
  | tick => exact (eq_of_tick hsome).2
  | drain => exact (eq_of_tick hsome).2

end

/-! ## Many operations -/

variable (mark : Nat) (ops : List (Operation α))

/-- A batcher after some operations. -/
def after : Batcher α := ops.foldl (fun b op => (b.perform op).2) (ofMark mark)

/-- The batches that some operations deliver. -/
def batches : List (List α) :=
  said (fun b op => (b.perform op).2) (fun b op => (b.perform op).1.toList) (ofMark mark) ops

@[simp] theorem after_append_singleton (op : Operation α) :
    after mark (ops ++ [op]) = ((after mark ops).perform op).2 := by
  simp [after]

@[simp] theorem batches_append_singleton (op : Operation α) :
    batches mark (ops ++ [op]) = batches mark ops ++ ((after mark ops).perform op).1.toList := by
  simp [batches, after]

@[simp] theorem mark_after : (after mark ops).mark = max mark 1 := by
  induction ops using List.reverseRecOn with
  | nil => rfl
  | append_singleton ops op ih => rw [after_append_singleton, mark_perform, ih]

/-- What has been delivered and then what is still collected is all that has been pushed. -/
theorem batches_flow :
    (batches mark ops).flatten ++ (after mark ops).queue = ops.flatMap Operation.items := by
  induction ops using List.reverseRecOn with
  | nil => rfl
  | append_singleton ops op ih =>
    rw [batches_append_singleton, after_append_singleton, List.flatten_append, List.append_assoc,
      perform_flows, ← List.append_assoc, ih, List.flatMap_append, List.flatMap_singleton]

theorem ne_nil_of_mem_batches {batch : List α} (h : batch ∈ batches mark ops) : batch ≠ [] := by
  obtain ⟨_, _, _, -, hbatch⟩ := exists_of_mem_said h
  exact ne_nil_of_mem_perform _ hbatch

/-- **Everything is delivered once, in order.** After any operations, whatever the mark: the batches, one after
another, and then what is collected are all that has been pushed; no batch is empty; less is collected than
the mark, which counts as one if it is zero, so that a push which reaches it leaves nothing behind; nothing is left
behind by a tick or at the end either; and what a batcher says of its queue is so. -/
theorem exactly_once_in_order :
    (batches mark ops).flatten ++ (after mark ops).queue = ops.flatMap Operation.items ∧
    (∀ batch ∈ batches mark ops, batch ≠ []) ∧
    (after mark ops).queue.length < max mark 1 ∧
    (∀ items, max mark 1 ≤ ((after mark ops).queue ++ items).length →
      (after mark (ops ++ [.push items])).queue = []) ∧
    (after mark (ops ++ [.tick])).queue = [] ∧ (after mark (ops ++ [.drain])).queue = [] ∧
    (after mark ops).length = (after mark ops).queue.length ∧
    ((after mark ops).isEmpty ↔ (after mark ops).queue = []) := by
  have hmark := mark_after mark ops
  refine ⟨batches_flow mark ops, fun batch => ne_nil_of_mem_batches mark ops, ?_, ?_, ?_, ?_, rfl,
    List.isEmpty_iff⟩
  · rw [← hmark]
    exact (after mark ops).length_lt_mark
  · intro items hle
    rw [after_append_singleton]
    exact queue_push_of_le (hmark ▸ hle)
  · rw [after_append_singleton]
    exact (after mark ops).queue_tick
  · rw [after_append_singleton]
    exact (after mark ops).queue_tick

end Batcher

end Scratchpad.Log
