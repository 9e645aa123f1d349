import Scratchpad.Run.Event

/-!
# The slot of the active run

At most one run is active. Starting a run takes the slot from the one before, and stopping empties it.
Every start and every kill raises the generation of the slot, and whatever a run reports is accepted only
while the slot still has the generation at which the run was started. So a run that has lost the slot can
do as it pleases without being heard.

## Main definitions

* `Slot`: the state of the slot, with all handles that it gave out and all who watch it.
* `Slot.start`, `Slot.stop`, `Slot.clear`, `Slot.subscribe`, `Slot.unsubscribe`: what its owner does.
* `Slot.deliver`, `Slot.setRunning`, `Slot.finish`: what a run reports.
-/

namespace Scratchpad.Run

open Log

/-- How far the active run has come. -/
inductive Phase where
  | idle
  /-- The source is compiled, and the program is about to be started. -/
  | starting
  /-- The program has been started. -/
  | running
deriving DecidableEq, Inhabited, Repr

/-- How a phase is called. -/
def Phase.name : Phase → String
  | .idle => "Idle"
  | .starting => "Starting"
  | .running => "Running"

/-- What a run holds on to. -/
structure Handle where
  /-- The generation of the slot when the run was started. -/
  generation : Nat
  isCancelled : Bool
deriving DecidableEq, Inhabited, Repr

/-- Someone who watches the slot. -/
structure Subscriber where
  /-- Whether events still reach the subscriber. -/
  isListening : Bool
  /-- The events that have reached the subscriber, oldest first. -/
  received : List (Event Nat Entry)
deriving DecidableEq, Inhabited, Repr

/-- A subscriber whom an event reaches, if the subscriber listens. -/
def Subscriber.notify (event : Event Nat Entry) (s : Subscriber) : Subscriber :=
  if s.isListening then { s with received := s.received ++ [event] } else s

/-- The state of the slot. Runs are named by their number. -/
structure Slot where
  generation : Nat
  phase : Phase
  /-- The run that has the slot. -/
  active : Option Nat
  /-- The handles of all runs, in the order in which they were started. -/
  handles : List Handle
  /-- The entries of the run that has the slot, or had it last. -/
  output : List Entry
  /-- How the last run ended. -/
  lastOutcome : Option Outcome
  subscribers : List Subscriber
deriving DecidableEq, Inhabited, Repr

namespace Slot

/-- The slot before the first run, with nobody who watches it. -/
def empty : Slot := ⟨0, .idle, none, [], [], none, []⟩

/-- The handle of the run that has the slot. -/
def activeHandle? (s : Slot) : Option Handle := s.active.bind (s.handles[·]?)

/-- Whether the run that was started at a generation has the slot. -/
def isCurrent (s : Slot) (generation : Nat) : Bool :=
  s.activeHandle?.any (·.generation == generation)

/-- Whether a run has been told to end. -/
def isCancelled (s : Slot) (run : Nat) : Bool := s.handles[run]?.any (·.isCancelled)

/-- Whether there is an active run. -/
def isRunning (s : Slot) : Bool := s.phase != .idle

/-- Tells everyone who listens. -/
def emit (s : Slot) (event : Event Nat Entry) : Slot :=
  { s with subscribers := s.subscribers.map (·.notify event) }

/-- Takes the slot from the active run and tells that run to end. -/
def killActive (s : Slot) : Slot :=
  match s.active with
  | none => s
  | some run =>
    let killed : Slot :=
      { s with
        generation := s.generation + 1
        phase := .idle
        active := none
        handles := s.handles.modify run fun h => { h with isCancelled := true }
        lastOutcome := some .killed }
    killed.emit (.finished run .killed)

/-- Starts a run for a source. -/
def start (s : Slot) (source : String) : Slot :=
  let s := s.killActive
  let run := s.handles.length
  let started : Slot :=
    { s with
      generation := s.generation + 1
      phase := .starting
      active := some run
      handles := s.handles ++ [⟨s.generation + 1, false⟩]
      output := []
      lastOutcome := none }
  started.emit (.started run source)

/-- Ends the active run. -/
def stop (s : Slot) : Slot := s.killActive

/-- Forgets what has been printed. -/
def clear (s : Slot) : Slot := { s with output := [] }

/-- Someone begins to watch the slot. -/
def subscribe (s : Slot) : Slot := { s with subscribers := s.subscribers ++ [⟨true, []⟩] }

/-- Someone no longer watches the slot. -/
def unsubscribe (s : Slot) (subscriber : Nat) : Slot :=
  { s with subscribers := s.subscribers.modify subscriber fun u => { u with isListening := false } }

/-- A run that was started at a generation prints entries. -/
def deliver (s : Slot) (generation run : Nat) (entries : List Entry) : Slot :=
  if !entries.isEmpty && s.isCurrent generation then
    let extended : Slot := { s with output := s.output ++ entries }
    extended.emit (.output run entries)
  else s

/-- The program of a run that was started at a generation has been started. -/
def setRunning (s : Slot) (generation : Nat) : Slot :=
  if s.isCurrent generation then { s with phase := .running } else s

/-- A run that was started at a generation ends. -/
def finish (s : Slot) (generation run : Nat) (outcome : Outcome) : Slot :=
  if s.isCurrent generation then
    let finished : Slot := { s with phase := .idle, active := none, lastOutcome := some outcome }
    finished.emit (.finished run outcome)
  else s

/-- How the slot is shown to a developer. -/
def describe (s : Slot) : String :=
  "RunSupervisor \x7b phase: " ++ s.phase.name ++ ", generation: " ++ toString s.generation ++
    ", output: " ++ toString s.output.length ++ " \x7d"

end Slot

end Scratchpad.Run
