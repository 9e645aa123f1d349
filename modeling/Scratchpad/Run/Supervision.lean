import Scratchpad.Compilation
import Scratchpad.Log.Batcher
import Scratchpad.Log.LineReader
import Scratchpad.Marking
import Scratchpad.Preamble
import Scratchpad.Run.Settings
import Scratchpad.Run.Slot
import Scratchpad.Sandbox.Script

/-!
# Supervision

A run is carried out by a job: it marks and compiles the source, writes the preamble and the composed
source, starts the program, and passes on what the program prints until it ends. Jobs share one thread.
A job goes on until it has to wait for something, and the jobs that have something to go on for do so in
the order in which they were woken. Time stands still meanwhile.

A job that has been told to end does so wherever it waits, except while a program is being started: a
program that was started too late still has to be killed.

## Main definitions

* `Stage`, `Job`: how far a job has come.
* `Supervision`: the slot, the sandbox, the jobs, and the time.
* `Supervision.resume`: a job goes on until it has to wait.
* `Supervision.settle`: all jobs that have been woken go on.
* `Supervision.elapse`: time goes by.
-/

namespace Scratchpad.Run

open Log Sandbox

/-- The files that a job writes. -/
inductive Part where
  | preamble
  | entry
deriving DecidableEq, Inhabited, Repr

/-- How far a job has come, and what it keeps for the way ahead. -/
inductive Stage where
  /-- Nothing has been done yet. -/
  | fresh (source : String)
  /-- Waits to write a file. -/
  | writing (part : Part) (entry : String)
  /-- Waits to start the program. -/
  | spawning
  /-- Waits for output. What has been collected is delivered at a time. -/
  | reading (process : Nat) (reader : LineReader) (batcher : Batcher Entry) (nextFlush : Nat)
  /-- Waits for the end of the program. -/
  | awaiting (process : Nat) (reader : LineReader) (batcher : Batcher Entry)
  | ended

/-- What carries out a run. -/
structure Job where
  /-- The generation at which the run was started. -/
  generation : Nat
  /-- Whether console calls are marked. -/
  matchLines : Bool
  /-- The environment of the program. -/
  environment : Environment
  stage : Stage

/-- How runs are carried out. -/
structure Workshop where
  settings : Settings
  compiler : Compiler

/-- The slot, the sandbox, the jobs in the order of their runs, and the time in milliseconds. -/
structure Supervision where
  slot : Slot
  sandbox : Script
  jobs : List Job
  /-- The jobs that have something to go on for, in the order in which they were woken. -/
  ready : List Nat
  now : Nat

namespace Supervision

/-- Nothing has been started yet, and one subscriber watches. -/
def initial : Supervision := ⟨Slot.empty.subscribe, Script.empty, [], [], 0⟩

/-- Puts a job at a stage. -/
def atStage (w : Supervision) (run : Nat) (stage : Stage) : Supervision :=
  { w with jobs := w.jobs.modify run fun j => { j with stage := stage } }

/-- Wakes a job, unless it has been woken already. -/
def wake (w : Supervision) (run : Nat) : Supervision :=
  if w.ready.contains run then w else { w with ready := w.ready ++ [run] }

/-! ## The end of a job -/

/-- A job ends with an outcome. -/
def conclude (w : Supervision) (run : Nat) (job : Job) (outcome : Outcome) : Supervision :=
  { w with slot := w.slot.finish job.generation run outcome }.atStage run .ended

/-- A job ends because something failed. The user is told by an entry. -/
def fail (w : Supervision) (run : Nat) (job : Job) (message : String) : Supervision :=
  { w with slot := w.slot.deliver job.generation run [Entry.ofFailure message] }.conclude run job
    (.failed message)

/-- A job that has been told to end kills its process. -/
def abandon (w : Supervision) (run process : Nat) : Supervision :=
  { w with sandbox := (w.sandbox.kill process).dismiss process }.atStage run .ended

/-! ## Output -/

/-- Delivers a batch, if there is one. -/
def deliverBatch (w : Supervision) (run : Nat) (job : Job) (batch : Option (List Entry)) : Supervision :=
  match batch with
  | some entries => { w with slot := w.slot.deliver job.generation run entries }
  | none => w

/-- The program has ended: what has been collected is delivered, and then the job ends. -/
def close (w : Supervision) (run : Nat) (job : Job) (process : Nat) (reader : LineReader)
    (batcher : Batcher Entry) : Supervision :=
  let (batch, batcher) := batcher.push reader.flush.1.toList
  let w := w.deliverBatch run job batch
  let w := w.deliverBatch run job batcher.drain.1
  let control := (w.sandbox.processes[process]?.map (·.control)).getD .lost
  let w := { w with sandbox := w.sandbox.dismiss process }
  match control with
  | .exited code => w.conclude run job (.completed code)
  | .alive | .lost => w.fail run job (Failure.wait "process handle dropped").message

/-- The output has ended: the job waits for the end of the program. -/
def awaitExit (w : Supervision) (run : Nat) (job : Job) (process : Nat) (reader : LineReader)
    (batcher : Batcher Entry) : Supervision :=
  if w.sandbox.waitGate.isHeld then
    { w with sandbox := w.sandbox.await .wait run }.atStage run (.awaiting process reader batcher)
  else w.close run job process reader batcher

/-- Reads chunks, and delivers whenever enough has been collected. -/
def readChunks (w : Supervision) (run : Nat) (job : Job) (reader : LineReader) (batcher : Batcher Entry) :
    List String → Supervision × LineReader × Batcher Entry
  | [] => (w, reader, batcher)
  | chunk :: chunks =>
    let (entries, reader) := reader.feed chunk
    let (batch, batcher) := batcher.push entries
    (w.deliverBatch run job batch).readChunks run job reader batcher chunks

/-- Delivers what has been collected if it is time to. The next time is an interval later. -/
def flushDue (workshop : Workshop) (w : Supervision) (run : Nat) (job : Job) (batcher : Batcher Entry)
    (nextFlush : Nat) : Supervision × Batcher Entry × Nat :=
  if nextFlush ≤ w.now then
    let (batch, batcher) := batcher.tick
    (w.deliverBatch run job batch, batcher, w.now + workshop.settings.flushInterval)
  else (w, batcher, nextFlush)

/-- Passes on the output of a process until there is no more. Delivering what has been collected comes
before reading more, so that a process that never pauses cannot hold it back. -/
def readOutput (workshop : Workshop) (w : Supervision) (run : Nat) (job : Job) (process : Nat)
    (reader : LineReader) (batcher : Batcher Entry) (nextFlush : Nat) : Supervision :=
  if w.slot.isCancelled run then w.abandon run process
  else
    let (w, batcher, nextFlush) := flushDue workshop w run job batcher nextFlush
    let unread := (w.sandbox.processes[process]?.map (·.unread)).getD []
    let w := { w with sandbox := w.sandbox.markRead process }
    let (w, reader, batcher) := w.readChunks run job reader batcher unread
    if (w.sandbox.controlled? process).isSome then
      w.atStage run (.reading process reader batcher nextFlush)
    else w.awaitExit run job process reader batcher

/-! ## The way to the process -/

/-- Starts the program. One that comes too late is killed. -/
def spawn (workshop : Workshop) (w : Supervision) (run : Nat) (job : Job) : Supervision :=
  let settings := workshop.settings
  let (answer, sandbox) :=
    w.sandbox.spawn run ⟨settings.program, [settings.entryFile], job.environment⟩
  let w := { w with sandbox := sandbox }
  match answer with
  | .error failure => w.fail run job failure.message
  | .ok process =>
    if w.slot.isCancelled run then w.abandon run process
    else
      let w := { w with slot := w.slot.setRunning job.generation }
      readOutput workshop w run job process (.start job.matchLines) (.ofMark settings.mark) w.now

/-- Arrives at the gate before a program is started. -/
def reachSpawn (workshop : Workshop) (w : Supervision) (run : Nat) (job : Job) : Supervision :=
  if w.sandbox.spawnGate.isHeld then
    { w with sandbox := w.sandbox.await .spawn run }.atStage run .spawning
  else spawn workshop w run job

/-- Writes the composed source. -/
def writeEntry (workshop : Workshop) (w : Supervision) (run : Nat) (job : Job) (entry : String) :
    Supervision :=
  let (answer, sandbox) := w.sandbox.write workshop.settings.entryFile entry
  let w := { w with sandbox := sandbox }
  match answer with
  | .error failure => w.fail run job failure.message
  | .ok () => reachSpawn workshop w run job

/-- Arrives at the gate before the composed source is written. -/
def reachEntry (workshop : Workshop) (w : Supervision) (run : Nat) (job : Job) (entry : String) :
    Supervision :=
  if w.slot.isCancelled run then w.atStage run .ended
  else if w.sandbox.writeGate.isHeld then
    { w with sandbox := w.sandbox.await .write run }.atStage run (.writing .entry entry)
  else writeEntry workshop w run job entry

/-- Writes the preamble. -/
def writePreamble (workshop : Workshop) (w : Supervision) (run : Nat) (job : Job) (entry : String) :
    Supervision :=
  let (answer, sandbox) := w.sandbox.write preambleFile preamble
  let w := { w with sandbox := sandbox }
  match answer with
  | .error failure => w.fail run job failure.message
  | .ok () => reachEntry workshop w run job entry

/-- Arrives at the gate before the preamble is written. -/
def reachPreamble (workshop : Workshop) (w : Supervision) (run : Nat) (job : Job) (entry : String) :
    Supervision :=
  if w.slot.isCancelled run then w.atStage run .ended
  else if w.sandbox.writeGate.isHeld then
    { w with sandbox := w.sandbox.await .write run }.atStage run (.writing .preamble entry)
  else writePreamble workshop w run job entry

/-- The text of the file that runs a source. -/
def composed (workshop : Workshop) (matchLines : Bool) (source : String) :
    Except CompileFailure String :=
  let marked := if matchLines then (Marking.ofSource source).code else source
  (workshop.compiler marked).map composeEntry

/-- Begins a job. -/
def begin (workshop : Workshop) (w : Supervision) (run : Nat) (job : Job) (source : String) :
    Supervision :=
  match composed workshop job.matchLines source with
  | .error failure => w.fail run job failure.message
  | .ok entry => reachPreamble workshop w run job entry

/-! ## Going on -/

/-- A job that waits at a gate ends there if it has been told to, and goes on if the gate has let it. -/
def passGate (w : Supervision) (point : Point) (run : Nat) (goOn : Supervision) : Supervision :=
  if w.slot.isCancelled run then { w with sandbox := w.sandbox.leave point run }.atStage run .ended
  else if (w.sandbox.gate point).callers.contains run then w
  else goOn

/-- A job goes on until it has to wait. -/
def resume (workshop : Workshop) (w : Supervision) (run : Nat) : Supervision :=
  match w.jobs[run]? with
  | none => w
  | some job =>
    match job.stage with
    | .fresh source => begin workshop w run job source
    | .writing .preamble entry => w.passGate .write run (writePreamble workshop w run job entry)
    | .writing .entry entry => w.passGate .write run (writeEntry workshop w run job entry)
    | .spawning =>
      if w.sandbox.spawnGate.callers.contains run then w else spawn workshop w run job
    | .reading process reader batcher nextFlush =>
      readOutput workshop w run job process reader batcher nextFlush
    | .awaiting process reader batcher =>
      if w.slot.isCancelled run then
        { w with sandbox := w.sandbox.leave .wait run }.abandon run process
      else if w.sandbox.waitGate.callers.contains run then w
      else w.close run job process reader batcher
    | .ended => w

/-- All jobs that have been woken go on. A job that goes on wakes no other. -/
def settle (workshop : Workshop) (w : Supervision) : Supervision :=
  w.ready.foldl (resume workshop) { w with ready := [] }

/-! ## Time -/

/-- The first moment after a time at which a timer goes off, given one such moment and its interval. -/
def nextTick (tick interval time : Nat) : Nat :=
  tick + ((time - tick) / interval + 1) * interval

/-- A job's timer goes off at every interval up to a time. What has been collected is delivered the first
time that it does. -/
def elapseJob (workshop : Workshop) (w : Supervision) (run time : Nat) : Supervision :=
  match w.jobs[run]? with
  | some job =>
    match job.stage with
    | .reading process reader batcher nextFlush =>
      if nextFlush ≤ time then
        let (batch, batcher) := batcher.tick
        let next := nextTick nextFlush workshop.settings.flushInterval time
        (w.deliverBatch run job batch).atStage run (.reading process reader batcher next)
      else w
    | _ => w
  | none => w

/-- Time goes by while all jobs wait. -/
def elapse (workshop : Workshop) (w : Supervision) (ms : Nat) : Supervision :=
  let time := w.now + ms
  let w := (List.range w.jobs.length).foldl (fun w run => elapseJob workshop w run time) w
  { w with now := time }

end Supervision

end Scratchpad.Run
