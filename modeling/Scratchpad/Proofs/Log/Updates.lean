import Scratchpad.Proofs.Log.Batches

/-!
# How often something is delivered

Batches are there so that much output comes with few updates. A push delivers nothing until there is as much as the
mark, so each of its batches has used up as many items as the mark. A tick, or the end, delivers what is left, which
is less than the mark. So there are no more batches than the mark fits into what has been pushed, and one more for
each tick.

## Main definitions

* `Batcher.Operation.isFlush`: operations that deliver whatever there is.
* `Batcher.Operation.Allows`: how many items a batch of an operation may have.

## Main statements

* `Batcher.allows_of_perform`: how many items a batch has.
* `Batcher.exists_full`: the batches of pushes have used up what has been pushed.
* `Batcher.updates_bounded`: how many batches there are.
-/

namespace Scratchpad.Log

namespace Batcher

variable {α : Type}

/-- Whether an operation delivers whatever there is. -/
def Operation.isFlush : Operation α → Bool
  | push _ => false
  | tick | drain => true

/-- How many items a batch of an operation may have, if so many make a batch of their own accord. -/
def Operation.Allows (mark : Nat) : Operation α → Nat → Prop
  | push items, n => mark ≤ n ∧ n ≤ mark - 1 + items.length
  | tick, n | drain, n => 1 ≤ n ∧ n ≤ mark - 1

/-! ## One operation -/

section

variable (b : Batcher α)

theorem length_le_of_tick {batch : List α} (h : b.tick.1 = some batch) :
    1 ≤ batch.length ∧ batch.length ≤ b.mark - 1 := by
  rcases eq_of_tick h with ⟨rfl, hne⟩
  have hlt := b.length_lt_mark
  have hpos := List.length_pos_iff.mpr hne
  omega

/-- **The number of items of a batch** is bounded by the mark and by what the operation brings. -/
theorem allows_of_perform {op : Operation α} {batch : List α} (h : (b.perform op).1 = some batch) :
    op.Allows b.mark batch.length := by
  cases op with
  | push items =>
    rcases eq_of_push h with ⟨rfl, hle⟩
    have hlt := b.length_lt_mark
    refine ⟨hle, ?_⟩
    rw [List.length_append]
    omega
  | tick => exact b.length_le_of_tick h
  | drain => exact b.length_le_of_tick h

theorem length_toList_perform (op : Operation α) : (b.perform op).1.toList.length ≤ 1 := by
  rw [Option.length_toList]
  split
  · exact Nat.le_refl 1
  · exact Nat.zero_le 1

/-- A batch that is delivered by no flush uses up as many items as the mark. -/
theorem perform_uses {op : Operation α} (h : ¬ op.isFlush = true) :
    (b.perform op).1.toList.length * b.mark + (b.perform op).2.queue.length ≤
      b.queue.length + op.items.length := by
  cases op with
  | push items =>
    have hflows := congrArg List.length (b.perform_flows (.push items))
    rw [List.length_append, List.length_append] at hflows
    cases hbatch : (b.perform (.push items)).1 with
    | none =>
      rw [hbatch] at hflows
      rw [Option.toList_none, List.length_nil, Nat.zero_mul]
      omega
    | some batch =>
      rcases eq_of_push hbatch with ⟨-, hle⟩
      rw [hbatch, Option.toList_some, List.flatten_singleton] at hflows
      rw [Option.toList_some, List.length_singleton, Nat.one_mul]
      omega
  | tick => exact absurd rfl h
  | drain => exact absurd rfl h

theorem queue_of_isFlush {op : Operation α} (h : op.isFlush = true) : (b.perform op).2.queue = [] := by
  cases op with
  | push items => cases h
  | tick => exact b.queue_tick
  | drain => exact b.queue_tick

end

/-! ## Many operations -/

variable (mark : Nat) (ops : List (Operation α))

/-- **The batches that no tick has delivered have used up what has been pushed**, up to what is still collected. -/
theorem exists_full : ∃ full, (batches mark ops).length ≤ full + ops.countP Operation.isFlush ∧
    full * max mark 1 + (after mark ops).queue.length ≤ (ops.flatMap Operation.items).length := by
  induction ops using List.reverseRecOn with
  | nil => exact ⟨0, Nat.le_refl 0, by simp [after]⟩
  | append_singleton ops op ih =>
    rcases ih with ⟨full, hcount, huse⟩
    rw [batches_append_singleton, after_append_singleton, List.length_append, List.countP_append,
      List.countP_singleton, List.flatMap_append, List.flatMap_singleton, List.length_append]
    by_cases hflush : op.isFlush = true
    · have hbatch := (after mark ops).length_toList_perform op
      have hqueue : ((after mark ops).perform op).2.queue = [] := queue_of_isFlush _ hflush
      refine ⟨full, ?_, ?_⟩
      · rw [if_pos hflush]
        omega
      · rw [hqueue, List.length_nil]
        omega
    · have hstep := (after mark ops).perform_uses hflush
      rw [mark_after] at hstep
      refine ⟨full + ((after mark ops).perform op).1.toList.length, ?_, ?_⟩
      · omega
      · rw [Nat.add_mul]
        omega

/-- **There are few updates.** After any operations, whatever the mark, which counts as one if it is zero: one more
operation delivers one batch at most; a batch that a push delivers has as many items as the mark or more, and less
than the mark and what is pushed together; one that a tick delivers, or the end, has any items but less than the mark.
So there are no more batches than the mark fits into all that has been pushed, and one for each tick and each end. -/
theorem updates_bounded :
    (∀ op, ∃ delivered, batches mark (ops ++ [op]) = batches mark ops ++ delivered ∧ delivered.length ≤ 1 ∧
      ∀ batch ∈ delivered, op.Allows (max mark 1) batch.length) ∧
    (batches mark ops).length ≤
      (ops.flatMap Operation.items).length / max mark 1 + ops.countP Operation.isFlush := by
  constructor
  · intro op
    refine ⟨_, batches_append_singleton mark ops op, length_toList_perform _ op, ?_⟩
    intro batch hbatch
    rw [← mark_after mark ops]
    exact allows_of_perform _ (Option.mem_toList.mp hbatch)
  · rcases exists_full mark ops with ⟨full, hcount, huse⟩
    have hfit : full ≤ (ops.flatMap Operation.items).length / max mark 1 := by
      rw [Nat.le_div_iff_mul_le (by omega)]
      omega
    omega

/-- There may be as many: the mark fits into five items twice, and there is one tick. -/
example : batches 2 [.push [1, 2], .push [3, 4], .push [5], .tick] = [[1, 2], [3, 4], [5]] := by
  decide

end Batcher

end Scratchpad.Log
