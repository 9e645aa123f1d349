import Scratchpad.Log.Batcher

/-!
# Nothing is lost in a batcher

An operation of a batcher delivers what has been collected and what is pushed, or keeps it: nothing gets
lost, doubled, or out of order on the way.

## Main statements

* `Batcher.queue_push_cases`, `Batcher.queue_tick`: what is kept.
* `Batcher.push_flows`, `Batcher.tick_flows`: what is delivered, and then what is kept.
* `Batcher.drain_flows`: at the end everything is delivered.
-/

namespace Scratchpad.Log

namespace Batcher

variable {α : Type} (b : Batcher α)

/-! ## What is kept -/

/-- After a push everything is collected, or nothing is. -/
theorem queue_push_cases (items : List α) :
    (b.push items).2.queue = b.queue ++ items ∨ (b.push items).2.queue = [] := by
  rw [push]
  split
  · exact .inl rfl
  · exact .inr rfl

@[simp] theorem mark_push (items : List α) : (b.push items).2.mark = b.mark := by
  rw [push]
  split <;> rfl

@[simp] theorem queue_tick : b.tick.2.queue = [] := by
  rw [tick]
  split
  · rename_i hempty
    exact List.isEmpty_iff.mp hempty
  · rfl

@[simp] theorem mark_tick : b.tick.2.mark = b.mark := by
  rw [tick]
  split <;> rfl

/-! ## What is delivered and what is kept -/

/-- A push delivers or keeps what has been collected and what is pushed. -/
theorem push_flows (items : List α) :
    (b.push items).1.getD [] ++ (b.push items).2.queue = b.queue ++ items := by
  rw [push]
  split <;> simp

/-- A tick delivers or keeps what has been collected. -/
theorem tick_flows : b.tick.1.getD [] ++ b.tick.2.queue = b.queue := by
  rw [tick]
  split <;> simp

/-- What has been collected is delivered at the end. -/
theorem drain_flows : b.drain.1.getD [] = b.queue := by
  rw [drain, tick]
  split
  · rename_i h
    simp [List.isEmpty_iff.mp h]
  · rfl

end Batcher

end Scratchpad.Log
