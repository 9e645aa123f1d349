import Scratchpad.Log.Entry

/-!
# Events of a run

Whoever watches runs is told when one starts, what it prints, and how it ends. Runs are named and
entries are kept in more than one form, so both are parameters of an event.

## Main definitions

* `Outcome`: how a run ended.
* `Event`: what happens in a run.
-/

namespace Scratchpad.Run

/-- How a run ended. -/
inductive Outcome where
  /-- The program ended of its own accord. -/
  | completed (exitCode : Int32)
  /-- The program could not be started, or what became of it is not known. -/
  | failed (message : String)
  /-- The run was stopped, or another one took its place. -/
  | killed
deriving DecidableEq, Inhabited, Repr

/-- What happens in a run. -/
inductive Event (Name Item : Type) where
  /-- A run started, for the source with an identifier. -/
  | started (run : Name) (source : String)
  /-- A run printed entries. -/
  | output (run : Name) (entries : List Item)
  /-- A run ended. -/
  | finished (run : Name) (outcome : Outcome)
deriving DecidableEq, Inhabited, Repr

/-- The run in which something happens. -/
def Event.run {Name Item : Type} : Event Name Item → Name
  | .started run _ => run
  | .output run _ => run
  | .finished run _ => run

end Scratchpad.Run
