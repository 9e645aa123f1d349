import Scratchpad.CommandLine.Plan
import Scratchpad.Machine.Place
import Scratchpad.Run.Supervision

/-!
# Launching runs

Before a program runs, the source is compiled, and the preamble and the composed source are written to the
place in which it runs. Any of that may fail, and then there is nothing that runs. What a program does is up
to the machine, or to whoever stands in for it.

## Main definitions

* `Programs`: what programs do.
* `Obstacle`, `Obstacle.message`: what keeps a program from running, and what the user is told.
* `launch`: launches a run in a place.
* `brace`: a sandbox in which a run fares as it does in the place.
-/

namespace Scratchpad.Tool

open CommandLine Machine Run

/-- What a program does if it can be started in a place, and the place afterwards. -/
abbrev Programs := Place → Sandbox.Launch → Except Fault (Course × Place)

/-- What keeps the program of a run from running. -/
inductive Obstacle where
  /-- The source does not compile. -/
  | compile (failure : CompileFailure)
  /-- A file cannot be written. -/
  | write (path : String) (failure : Sandbox.Failure)
  /-- The program cannot be started. -/
  | spawn (program : String) (fault : Fault)
deriving DecidableEq, Repr

/-- What the user is told. -/
def Obstacle.message : Obstacle → String
  | .compile failure => failure.message
  | .write _ failure => failure.message
  | .spawn program fault => (Sandbox.Failure.spawn program fault.message).message

@[simp] theorem Obstacle.message_compile (failure : CompileFailure) :
    (Obstacle.compile failure).message = failure.message := rfl

@[simp] theorem Obstacle.message_write (path : String) (failure : Sandbox.Failure) :
    (Obstacle.write path failure).message = failure.message := rfl

@[simp] theorem Obstacle.message_spawn (program : String) (fault : Fault) :
    (Obstacle.spawn program fault).message = (Sandbox.Failure.spawn program fault.message).message := rfl

/-- Launches a run of a source in a place: what its program does, or what keeps it from running, and the place
afterwards. -/
def launch (programs : Programs) (plan : Plan) (place : Place) (text : String) :
    Except Obstacle Course × Place :=
  let settings := plan.settings
  match Supervision.composed ⟨settings, compile⟩ plan.matchesLines text with
  | .error failure => (.error (.compile failure), place)
  | .ok entry =>
    match place.write preambleFile preamble with
    | .error failure => (.error (.write preambleFile failure), place)
    | .ok place =>
      match place.write settings.entryFile entry with
      | .error failure => (.error (.write settings.entryFile failure), place)
      | .ok place =>
        match programs place ⟨settings.program, [settings.entryFile], plan.environment⟩ with
        | .error fault => (.error (.spawn settings.program fault), place)
        | .ok (course, place) => (.ok course, place)

/-- A sandbox that fails as the launch of a run does, or not at all. -/
def brace (sandbox : Sandbox.Script) : Except Obstacle Course → Sandbox.Script
  | .error (.write path failure) => { sandbox with refusals := [(path, failure)] }
  | .error (.spawn _ fault) => { sandbox with refusals := [] }.failSpawn fault.message
  | .error (.compile _) | .ok _ => { sandbox with refusals := [] }

@[simp] theorem brace_write (sandbox : Sandbox.Script) (path : String) (failure : Sandbox.Failure) :
    brace sandbox (.error (.write path failure)) = { sandbox with refusals := [(path, failure)] } := rfl

@[simp] theorem brace_spawn (sandbox : Sandbox.Script) (program : String) (fault : Fault) :
    brace sandbox (.error (.spawn program fault)) =
      { sandbox with refusals := [] }.failSpawn fault.message := rfl

end Scratchpad.Tool
