/-!
# Batches

Output comes faster than it can be shown, so it is delivered in batches. A batcher collects what is
pushed and delivers all of it as soon as there is as much as its mark, or when it is told to. Hence it
never holds as much as the mark.

## Main definitions

* `Batcher`: what is collected, and the mark.
* `Batcher.push`, `Batcher.tick`, `Batcher.drain`: operations, each with the batch that it delivers.
* `Batcher.length`, `Batcher.isEmpty`: how much is collected.
-/

namespace Scratchpad.Log

variable {α : Type}

/-- What is collected for the next batch. -/
structure Batcher (α : Type) where
  /-- How many items make a batch of their own accord. -/
  mark : Nat
  /-- The items that are collected, oldest first. -/
  queue : List α
  length_lt_mark : queue.length < mark
deriving Repr

namespace Batcher

/-- A batcher that has collected nothing. Every batch has at least one item. -/
def ofMark (mark : Nat) : Batcher α :=
  ⟨max mark 1, [], by simp only [List.length_nil]; omega⟩

/-- A batcher whose queue has been delivered. -/
def emptied (b : Batcher α) : Batcher α :=
  ⟨b.mark, [], Nat.lt_of_le_of_lt (Nat.zero_le _) b.length_lt_mark⟩

/-- Collects items, and delivers everything when the mark is reached. -/
def push (b : Batcher α) (items : List α) : Option (List α) × Batcher α :=
  if h : (b.queue ++ items).length < b.mark then (none, ⟨b.mark, b.queue ++ items, h⟩)
  else (some (b.queue ++ items), b.emptied)

/-- Delivers what is collected, if anything is. -/
def tick (b : Batcher α) : Option (List α) × Batcher α :=
  if b.queue.isEmpty then (none, b) else (some b.queue, b.emptied)

/-- Delivers the last batch. -/
def drain (b : Batcher α) : Option (List α) × Batcher α := b.tick

/-- How many items are collected. -/
def length (b : Batcher α) : Nat := b.queue.length

/-- Whether nothing is collected. -/
def isEmpty (b : Batcher α) : Bool := b.queue.isEmpty

/-- How a batcher is shown to a developer. -/
def describe (b : Batcher α) : String :=
  "LogBatcher \x7b queued: " ++ toString b.queue.length ++ ", high_water_mark: " ++ toString b.mark ++ " \x7d"

@[simp] theorem mark_ofMark (mark : Nat) : (ofMark mark : Batcher α).mark = max mark 1 := rfl

@[simp] theorem queue_ofMark (mark : Nat) : (ofMark mark : Batcher α).queue = [] := rfl

@[simp] theorem queue_emptied (b : Batcher α) : b.emptied.queue = [] := rfl

@[simp] theorem mark_emptied (b : Batcher α) : b.emptied.mark = b.mark := rfl

end Batcher

end Scratchpad.Log
