import Scratchpad.Proofs.Basic
import Scratchpad.Run.Action

/-!
# Histories

A history is what happens from the beginning: somebody acts, or all jobs that have been woken go on. Any
number of actions may be done before the jobs go on, and the jobs may be woken by any of them.

## Main definitions

* `Turn`: what happens next.
* `Supervision.after`: the world after a history.
* `requests`: what the runs of a history are asked for.
* `Supervision.printed`: what a process has printed in a history.
-/

namespace Scratchpad.Run

/-- What happens next. -/
inductive Turn where
  | act (action : Action)
  /-- The jobs that have been woken go on. -/
  | settle
deriving DecidableEq, Repr

/-- What a run is asked for. -/
structure Request where
  source : String
  text : String
  matchLines : Bool
  environment : Environment
deriving DecidableEq, Repr

/-- What the run that is started by a turn is asked for. -/
def Turn.request? : Turn → Option Request
  | .act (.start source text matchLines environment) => some ⟨source, text, matchLines, environment⟩
  | _ => none

/-- What the runs of a history are asked for, in the order in which they are started. -/
def requests (turns : List Turn) : List Request := turns.filterMap Turn.request?

theorem requests_append (earlier later : List Turn) :
    requests (earlier ++ later) = requests earlier ++ requests later := List.filterMap_append ..

theorem requests_append_singleton (turns : List Turn) (t : Turn) :
    requests (turns ++ [t]) = requests turns ++ t.request?.toList := by
  rw [requests_append]
  cases ht : t.request? <;> simp [requests, ht]

namespace Supervision

variable (workshop : Workshop)

/-- The world after a turn. -/
def turn (w : Supervision) : Turn → Supervision
  | .act action => (perform workshop w action).2
  | .settle => settle workshop w

/-- The world after a history. -/
def after (turns : List Turn) : Supervision := turns.foldl (turn workshop) initial

/-- What a process prints in a turn. Only a process that goes on can print. -/
def prints (process : Nat) (w : Supervision) : Turn → List String
  | .act (.emit p chunk) =>
    if p = process ∧ (w.sandbox.controlled? p).isSome then [chunk] else []
  | _ => []

/-- What a process has printed in a history, chunk by chunk. -/
def printed (turns : List Turn) (process : Nat) : List String :=
  said (turn workshop) (prints process) initial turns

@[simp] theorem after_append_singleton (turns : List Turn) (t : Turn) :
    after workshop (turns ++ [t]) = turn workshop (after workshop turns) t := by
  simp [after]

@[simp] theorem printed_append_singleton (turns : List Turn) (t : Turn) (process : Nat) :
    printed workshop (turns ++ [t]) process =
      printed workshop turns process ++ prints process (after workshop turns) t :=
  said_append_singleton ..

end Supervision

end Scratchpad.Run
