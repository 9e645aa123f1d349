/-!
# Debouncing

An action that is asked for again and again is to be carried out once, when nobody has asked for it for
a while. A debouncer holds at most one action: asking for another one replaces it, and it is due a fixed
delay after it was asked for. Times are in milliseconds.

## Main definitions

* `Debouncer`: the delay, and the action that waits.
* `Debouncer.schedule`, `Debouncer.cancel`: asking for an action, and giving it up.
* `Debouncer.due?`: the action that is due, and when it was.
-/

namespace Scratchpad

variable {α : Type}

/-- An action that waits until it is due. There is one place for it: asking for another action, giving it up and letting
the debouncer go all abort the only task that still sleeps, and a task that has woken up does nothing any more. -/
structure Debouncer (α : Type) where
  /-- How long an action waits. -/
  delay : Nat
  /-- The action that waits, and when it is due. -/
  waiting : Option (α × Nat)
deriving DecidableEq, Repr

namespace Debouncer

/-- How long an action waits unless told otherwise. -/
def defaultDelay : Nat := 1000

/-- A debouncer in which nothing waits. -/
def ofDelay (delay : Nat) : Debouncer α := ⟨delay, none⟩

/-- Asks for an action. One that still waits is given up. -/
def schedule (d : Debouncer α) (now : Nat) (action : α) : Debouncer α :=
  { d with waiting := some (action, now + d.delay) }

/-- Gives up the action that waits. -/
def cancel (d : Debouncer α) : Debouncer α := { d with waiting := none }

/-- Whether an action waits. -/
def isPending (d : Debouncer α) : Bool := d.waiting.isSome

/-- The action that is carried out by a time with the moment at which it is, if one is due. -/
def due? (d : Debouncer α) (now : Nat) : Option (α × Nat) :=
  d.waiting.filter (·.2 ≤ now)

/-- A debouncer after the action that is due by a time has been carried out. -/
def settle (d : Debouncer α) (now : Nat) : Debouncer α :=
  if (d.due? now).isSome then d.cancel else d

end Debouncer

end Scratchpad
