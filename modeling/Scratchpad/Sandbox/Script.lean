import Scratchpad.Environment
import Scratchpad.Sandbox.Failure

/-!
# Scripted sandboxes

A sandbox whose programs do what a script tells them: the script decides what a process prints and when
it ends, and which calls of the sandbox fail. Calls pass gates that the script may hold. A call at a held
gate does nothing until the gate is released, and then the calls that wait there go on in the order of
their arrival.

## Main definitions

* `Gate`: a gate with those who wait at it.
* `Process`: a process with what it has printed and how it ended.
* `Script`: the sandbox.
* `Script.write`, `Script.spawn`, `Script.kill`, `Script.dismiss`: what a run does in it.
* `Script.emit?`, `Script.exit?`, `Script.lose?`, `Script.hold`, `Script.release`: what the script does.
-/

namespace Scratchpad.Sandbox

/-- The calls that pass a gate. -/
inductive Point where
  | write
  | spawn
  | wait
deriving DecidableEq, Inhabited, Repr

/-- A gate that calls pass. Those who wait are named by the number of their run. -/
structure Gate where
  isHeld : Bool
  /-- Who waits, in the order of arrival. -/
  callers : List Nat
deriving DecidableEq, Inhabited, Repr

/-- What is known of the end of a process. -/
inductive Control where
  /-- The process goes on. -/
  | alive
  /-- The process ended with a code. -/
  | exited (code : Int32)
  /-- The process is gone, and nobody knows its code. -/
  | lost
deriving DecidableEq, Inhabited, Repr

/-- A process of the script. -/
structure Process where
  /-- The run that started it. -/
  owner : Nat
  /-- The chunks of output that its run has not read, oldest first. -/
  unread : List String
  control : Control
  /-- Whether it was killed while it went on. -/
  isKilled : Bool
  /-- Whether its run still cares for it. -/
  isAttended : Bool
deriving DecidableEq, Inhabited, Repr

/-- What a program was started with. -/
structure Launch where
  program : String
  arguments : List String
  environment : Environment
deriving DecidableEq, Inhabited, Repr

/-- A sandbox whose processes follow a script. -/
structure Script where
  /-- Names and contents of the files that were written, the latest first. -/
  files : List (String × String)
  launches : List Launch
  processes : List Process
  /-- Files that cannot be written, and what goes wrong. -/
  refusals : List (String × Failure)
  /-- Why the next file cannot be written. -/
  writeFailure : Option String
  /-- Why the next program cannot be started. -/
  spawnFailure : Option String
  writeGate : Gate
  spawnGate : Gate
  waitGate : Gate
deriving DecidableEq, Inhabited, Repr

namespace Script

/-- A sandbox in which nothing has happened. -/
def empty : Script := ⟨[], [], [], [], none, none, ⟨false, []⟩, ⟨false, []⟩, ⟨false, []⟩⟩

/-- The gate of a kind of call. -/
def gate (s : Script) : Point → Gate
  | .write => s.writeGate
  | .spawn => s.spawnGate
  | .wait => s.waitGate

/-- A sandbox with one gate changed. -/
def modifyGate (s : Script) (point : Point) (f : Gate → Gate) : Script :=
  match point with
  | .write => { s with writeGate := f s.writeGate }
  | .spawn => { s with spawnGate := f s.spawnGate }
  | .wait => { s with waitGate := f s.waitGate }

/-- The contents of a file. -/
def file? (s : Script) (path : String) : Option String := s.files.lookup path

/-- A sandbox with one process changed. -/
def modifyProcess (s : Script) (process : Nat) (f : Process → Process) : Script :=
  { s with processes := s.processes.modify process f }

/-! ## What a run does -/

/-- A run arrives at a gate and has to wait there. -/
def await (s : Script) (point : Point) (run : Nat) : Script :=
  s.modifyGate point fun g => { g with callers := g.callers ++ [run] }

/-- A run no longer waits at a gate. -/
def leave (s : Script) (point : Point) (run : Nat) : Script :=
  s.modifyGate point fun g => { g with callers := g.callers.filter (· != run) }

/-- Writes a file. A failure that the script has set is used up. -/
def write (s : Script) (path contents : String) : Except Failure Unit × Script :=
  match s.writeFailure with
  | some reason => (.error (.write path reason), { s with writeFailure := none })
  | none =>
    match s.refusals.lookup path with
    | some failure => (.error failure, s)
    | none => (.ok (), { s with files := (path, contents) :: s.files.filter (·.1 != path) })

/-- Starts a process for a run. A failure that the script has set is used up. -/
def spawn (s : Script) (run : Nat) (launch : Launch) : Except Failure Nat × Script :=
  match s.spawnFailure with
  | some reason => (.error (.spawn launch.program reason), { s with spawnFailure := none })
  | none =>
    (.ok s.processes.length,
      { s with
        launches := s.launches ++ [launch]
        processes := s.processes ++ [⟨run, [], .alive, false, true⟩] })

/-- Kills a process. Killing one that has ended has no effect. -/
def kill (s : Script) (process : Nat) : Script :=
  s.modifyProcess process fun p => if p.control = .alive then { p with isKilled := true } else p

/-- A run no longer cares for a process. -/
def dismiss (s : Script) (process : Nat) : Script :=
  s.modifyProcess process fun p => { p with isAttended := false }

/-- All output of a process has been read. -/
def markRead (s : Script) (process : Nat) : Script :=
  s.modifyProcess process fun p => { p with unread := [] }

/-! ## What the script does -/

/-- A process that can be told what to do. -/
def controlled? (s : Script) (process : Nat) : Option Process :=
  s.processes[process]?.filter (·.control = .alive)

/-- A process prints a chunk. The answer tells whether anybody receives it. -/
def emit? (s : Script) (process : Nat) (chunk : String) : Option (Bool × Script) :=
  (s.controlled? process).map fun p =>
    if p.isAttended then
      (true, s.modifyProcess process fun p => { p with unread := p.unread ++ [chunk] })
    else (false, s)

/-- A process ends with a code. -/
def exit? (s : Script) (process : Nat) (code : Int32) : Option Script :=
  (s.controlled? process).map fun _ =>
    s.modifyProcess process fun p => { p with control := .exited code }

/-- A process is lost. -/
def lose? (s : Script) (process : Nat) : Option Script :=
  (s.controlled? process).map fun _ => s.modifyProcess process fun p => { p with control := .lost }

/-- How many chunks of a process nobody has read. -/
def queued? (s : Script) (process : Nat) : Option Nat :=
  (s.controlled? process).map (·.unread.length)

/-- Holds a gate. -/
def hold (s : Script) (point : Point) : Script :=
  s.modifyGate point fun g => { g with isHeld := true }

/-- Releases a gate. Those who wait there may go on. -/
def release (s : Script) (point : Point) : Script :=
  s.modifyGate point fun _ => ⟨false, []⟩

/-- The next file cannot be written. -/
def failWrite (s : Script) (reason : String) : Script := { s with writeFailure := some reason }

/-- The next program cannot be started. -/
def failSpawn (s : Script) (reason : String) : Script := { s with spawnFailure := some reason }

end Script

end Scratchpad.Sandbox
