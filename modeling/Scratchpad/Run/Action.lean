import Scratchpad.Run.Supervision

/-!
# Actions

What can be done from outside: the owner of the slot starts and stops runs, the script tells its
processes what to do, and time goes by. Every action wakes the jobs that it concerns, in a fixed order,
and they go on once the world settles. Several actions may be done before it does.

## Main definitions

* `Action`: what can be done.
* `Reply`: what is answered.
* `Supervision.perform`: an action, before any job goes on.
* `Supervision.step`: an action, after all jobs have gone on.
-/

namespace Scratchpad.Run

open Log Sandbox

/-- What can be done from outside. -/
inductive Action where
  /-- Starts a run for a source with an identifier. -/
  | start (source text : String) (matchLines : Bool) (environment : Environment)
  | stop
  | clear
  | subscribe
  | unsubscribe (subscriber : Nat)
  /-- A process prints a chunk. -/
  | emit (process : Nat) (chunk : String)
  /-- A process ends with a code. -/
  | exit (process : Nat) (code : Int32)
  /-- A process is lost. -/
  | lose (process : Nat)
  | hold (point : Point)
  | release (point : Point)
  /-- The next file cannot be written. -/
  | failWrite (reason : String)
  /-- The next program cannot be started. -/
  | failSpawn (reason : String)
  /-- Time goes by. -/
  | advance (ms : Nat)
deriving DecidableEq, Repr

/-- What is answered to an action. -/
inductive Reply where
  | done
  /-- The number of the run that was started. -/
  | run (number : Nat)
  /-- The number of the new subscriber. -/
  | subscriber (number : Nat)
  /-- Whether anybody receives what was printed. -/
  | received (isReceived : Bool)
  /-- There is no process that could be told what to do. -/
  | noProcess
deriving DecidableEq, Repr

namespace Supervision

/-- Wakes the active run if it waits where being told to end is noticed. -/
def wakeActive (w : Supervision) : Supervision :=
  match w.slot.active with
  | none => w
  | some run =>
    match w.jobs[run]? with
    | none => w
    | some job =>
      match job.stage with
      | .spawning => w
      | _ => w.wake run

/-- Starts a run. The run that had the slot notices before the new one begins. -/
def start (w : Supervision) (source text : String) (matchLines : Bool) (environment : Environment) :
    Supervision :=
  let w := w.wakeActive
  let run := w.jobs.length
  let slot := w.slot.start source
  { w with
    slot := slot
    jobs := w.jobs ++ [⟨slot.generation, matchLines, environment, .fresh text⟩]
    ready := w.ready ++ [run] }

/-- Changes the sandbox and wakes the owner of a process. -/
def withProcess (w : Supervision) (process : Nat) (sandbox : Option Script) : Reply × Supervision :=
  match sandbox, w.sandbox.processes[process]? with
  | some sandbox, some p => (.done, { w with sandbox := sandbox }.wake p.owner)
  | _, _ => (.noProcess, w)

/-- An action, before any job goes on. -/
def perform (workshop : Workshop) (w : Supervision) : Action → Reply × Supervision
  | .start source text matchLines environment =>
    (.run w.jobs.length, w.start source text matchLines environment)
  | .stop =>
    let w := w.wakeActive
    (.done, { w with slot := w.slot.stop })
  | .clear => (.done, { w with slot := w.slot.clear })
  | .subscribe => (.subscriber w.slot.subscribers.length, { w with slot := w.slot.subscribe })
  | .unsubscribe subscriber => (.done, { w with slot := w.slot.unsubscribe subscriber })
  | .emit process chunk =>
    match w.sandbox.emit? process chunk with
    | none => (.noProcess, w)
    | some (isReceived, sandbox) => (.received isReceived, (w.withProcess process (some sandbox)).2)
  | .exit process code => w.withProcess process (w.sandbox.exit? process code)
  | .lose process => w.withProcess process (w.sandbox.lose? process)
  | .hold point => (.done, { w with sandbox := w.sandbox.hold point })
  | .release point =>
    let callers := (w.sandbox.gate point).callers
    (.done, callers.foldl wake { w with sandbox := w.sandbox.release point })
  | .failWrite reason => (.done, { w with sandbox := w.sandbox.failWrite reason })
  | .failSpawn reason => (.done, { w with sandbox := w.sandbox.failSpawn reason })
  | .advance ms => (.done, elapse workshop (settle workshop w) ms)

/-- An action, after all jobs have gone on. -/
def step (workshop : Workshop) (w : Supervision) (action : Action) : Reply × Supervision :=
  let (reply, w) := perform workshop w action
  (reply, settle workshop w)

end Supervision

end Scratchpad.Run
