import Scratchpad.CommandLine.Plan
import Scratchpad.Debouncer
import Scratchpad.Run.Action
import Scratchpad.Run.Display
import Scratchpad.Tool.Launch
import Scratchpad.Tool.Preparation

/-!
# Sessions of the tool

The tool reads its configuration and the source and runs it in a place of the machine. It ends with the run,
or it watches the source and runs it again whenever it has changed, until it is interrupted. Time goes by
from one moment at which something happens to the next.

## Main definitions

* `Session`: the tool while it is at work.
* `Session.begin`: starts the tool.
* `Session.await`, `Session.pause`, `Session.replace`, `Session.interrupt`: what a user does meanwhile.
* `Session.finish`: lets the tool go on until nothing more happens.
* `Session.events`, `Session.lines`: what there is to see of the tool.
-/

namespace Scratchpad.Tool

open CommandLine Machine Run

/-- What a process does at a time. -/
structure Happening where
  time : Nat
  action : Action

/-- The source that is watched. -/
structure Watch where
  /-- The way of the folder. -/
  folder : Way
  name : String
deriving DecidableEq, Inhabited, Repr

/-- The tool while it is at work. -/
structure Session where
  /-- What programs do. -/
  programs : Programs
  arguments : Arguments
  plan : Plan
  /-- From where the paths of the user lead. -/
  here : Way
  place : Place
  supervision : Supervision
  /-- What the processes are going to do. -/
  happenings : List Happening
  watch : Option Watch
  /-- The run that is about to be started again. -/
  debouncer : Debouncer Unit
  /-- How many events the user has waited for. -/
  seen : Nat
  /-- The code with which the tool has ended. -/
  code : Option UInt8

/-- What there is to see when the tool could not begin its work. -/
structure Refusal where
  channel : Channel
  text : String
  code : UInt8
deriving DecidableEq, Inhabited, Repr

namespace Session

/-- How runs are carried out. -/
def workshop (s : Session) : Workshop := ⟨s.plan.settings, compile⟩

/-- All events so far. The first subscriber sees every one. -/
def events (s : Session) : List (Event Nat Log.Entry) :=
  (s.supervision.slot.subscribers.head?.map (·.received)).getD []

/-- Does something to the supervision, and lets all jobs go on. -/
def act (s : Session) (action : Action) : Session :=
  { s with supervision := (s.supervision.step s.workshop action).2 }

/-- A code as it is told when the tool ends: in one byte. -/
def codeByte (code : Int32) : UInt8 := UInt8.ofNat (code.toInt % 256).toNat

/-- How a run ended, if an event tells it. -/
def outcomeOf? (run : Nat) : Event Nat Log.Entry → Option Outcome
  | .finished r outcome => if r = run then some outcome else none
  | .started .. | .output .. => none

/-- How the first run ended, if it has. -/
def firstOutcome? (s : Session) : Option Outcome := s.events.findSome? (outcomeOf? 0)

/-- Without a watch the tool ends with the first run. -/
def settled (s : Session) : Session :=
  match s.watch, s.code with
  | none, none => { s with code := s.firstOutcome?.map fun o => codeByte o.exitCode }
  | _, _ => s

/-! ## Runs -/

/-- What a process does, if its program is started now. -/
def happeningsOf (s : Session) (process : Nat) (course : Course) : List Happening :=
  let now := s.supervision.now
  let chunks := course.chunks.map fun (time, chunk) => ⟨now + time, .emit process chunk⟩
  match course.ending with
  | .endless => chunks
  | ending => chunks ++ [⟨now + course.closing, .exit process ending.code⟩]

/-- Starts a run, given what comes of its launch and the place afterwards. -/
def startLaunched (s : Session) (text : String) (launched : Except Obstacle Course) (place : Place) :
    Session :=
  let w := s.supervision
  let happenings := match launched with
    | .ok course => s.happeningsOf w.sandbox.processes.length course
    | .error _ => []
  let launching : Session :=
    { s with
      place := place
      supervision := { w with sandbox := brace w.sandbox launched }
      happenings := s.happenings ++ happenings }
  launching.act (.start s.arguments.file text s.plan.matchesLines s.plan.environment)

/-- Starts a run. -/
def startRun (s : Session) (text : String) : Session :=
  let launched := launch s.programs s.plan s.place text
  s.startLaunched text launched.1 launched.2

/-- Starts a run of the source as it is now, if it can be read. -/
def rerun (s : Session) : Session :=
  match readSource s.place.tree s.here s.arguments.file with
  | .ok text => s.startRun text
  | .error _ => s

/-! ## Time -/

/-- When the active run delivers what it has collected, if there is anything. -/
def nextDelivery? (s : Session) : Option Nat :=
  s.supervision.slot.active.bind fun run => s.supervision.jobs[run]?.bind fun job =>
    match job.stage with
    | .reading _ _ batcher nextFlush => if batcher.queue.isEmpty then none else some nextFlush
    | _ => none

/-- The next moment at which something happens. -/
def nextMoment? (s : Session) : Option Nat :=
  (s.happenings.map (·.time) ++ s.nextDelivery?.toList ++ (s.debouncer.waiting.map (·.2)).toList).min?

/-- Time goes by up to a moment, and what happens then happens. -/
def passTo (s : Session) (moment : Nat) : Session :=
  let s := s.act (.advance (moment - s.supervision.now))
  let (due, later) := s.happenings.partition (·.time ≤ moment)
  let s : Session := { s with happenings := later }
  let s := (due.foldl (fun s h => s.act h.action) s).settled
  if (s.debouncer.due? moment).isSome then
    let settled : Session := { s with debouncer := s.debouncer.settle moment }
    settled.rerun
  else s

/-- Lets things happen up to a time, as long as the tool is at work. -/
def passMoments (until? : Option Nat) : Nat → Session → Session
  | 0, s => s
  | fuel + 1, s =>
    match s.code, s.nextMoment? with
    | none, some moment =>
      if until?.all (moment ≤ ·) then passMoments until? fuel (s.passTo moment) else s
    | _, _ => s

/-- How many moments a session may have. -/
def patience : Nat := 100000

/-! ## What a user does -/

/-- The kinds of events that can be waited for. -/
inductive Kind where
  | started
  | output
  | finished
deriving DecidableEq, Inhabited, Repr

/-- The kind of an event. -/
def kindOf : Event Nat Log.Entry → Kind
  | .started .. => .started
  | .output .. => .output
  | .finished .. => .finished

/-- Waits for an event of a kind that has not been seen. -/
def await (kind : Kind) : Nat → Session → Session
  | 0, s => s
  | fuel + 1, s =>
    match (s.events.drop s.seen).findIdx? fun e => kindOf e == kind with
    | some n => { s with seen := s.seen + n + 1 }
    | none =>
      match s.code, s.nextMoment? with
      | none, some moment => await kind fuel (s.passTo moment)
      | _, _ => { s with seen := s.events.length }

/-- Does nothing for a while. -/
def pause (s : Session) (ms : Nat) : Session :=
  let time := s.supervision.now + ms
  let s := passMoments (some time) patience s
  if s.code.isSome then s else s.act (.advance (time - s.supervision.now))

/-- A file is put in the place of another one. The tool notices if that is the source that it watches. -/
def replace (s : Session) (path contents : String) : Session :=
  match s.place.tree.locate s.here path with
  | .error _ => s
  | .ok way =>
    let written := s.place.tree.plant way (.file (Utf8.encode contents))
    let s : Session := { s with place := { s.place with tree := written } }
    match s.code, s.watch with
    | none, some watch =>
      if way = watch.folder ++ [watch.name] then
        let scheduled : Session := { s with debouncer := s.debouncer.schedule s.supervision.now () }
        passMoments (some s.supervision.now) 1 scheduled
      else s
    | _, _ => s

/-- A file is removed. The tool does not care. -/
def remove (s : Session) (path : String) : Session :=
  match s.place.tree.locate s.here path with
  | .error _ => s
  | .ok way => { s with place := { s.place with tree := s.place.tree.remove way } }

/-- The user interrupts the tool after a little while. A single run is stopped, which ends the tool. A watch
ends by itself. -/
def interrupt (s : Session) : Session :=
  let s := s.pause 100
  if s.code.isSome then s
  else
    let stopped := s.act .stop
    match s.watch with
    | none => stopped.settled
    | some _ => { stopped with debouncer := s.debouncer.cancel, code := some 0 }

/-- Lets the tool go on until nothing more happens. Whatever happens, output is delivered at one moment more
at most. -/
def finish (s : Session) : Session := passMoments none (patience + 2 * s.happenings.length) s

/-! ## The beginning -/

/-- What there is to see of a trouble. -/
def refused (t : Trouble) : Refusal := ⟨.standardError, t.report, 1⟩

/-- The folder for files that nobody asked to keep. -/
def scratchFolder : String := "/tmp/tsplay-0"

/-- The folder in which the files of runs are written, which is made if it is missing. -/
def makePlace (tree : Tree) (here : Way) (a : Arguments) : Except Trouble Place :=
  match a.workFolder with
  | none => .ok ⟨tree.plant ["tmp", "tsplay-0"] .folder, here, scratchFolder⟩
  | some path =>
    match tree.makeFolders here path with
    | .error fault => .error (.folderNotMade path fault)
    | .ok tree => .ok ⟨tree, here, path⟩

/-- The source that is watched, if the user wants that. -/
def makeWatch (tree : Tree) (here : Way) (a : Arguments) : Except Trouble (Option Watch) :=
  if !a.isWatched then .ok none
  else
    match Path.fileName? a.file with
    | none => .error (.notAFile a.file)
    | some name =>
      let folder := Path.folder a.file
      let trouble : Trouble := .folderNotWatched folder (Path.join ("/" ++ "/".intercalate here) folder)
      match tree.locate here folder with
      | .ok way => if (tree.find? way).isSome then .ok (some ⟨way, name⟩) else .error trouble
      | .error _ => .error trouble

/-- The tool before it has run anything. -/
def opened (programs : Programs) (here : Way) (a : Arguments) (config : Config) (place : Place)
    (watch : Option Watch) : Session where
  programs := programs
  arguments := a
  plan := a.plan config
  here := here
  place := place
  supervision := .initial
  happenings := []
  watch := watch
  debouncer := .ofDelay config.quietTime
  seen := 0
  code := none

/-- Begins to work on what the user asks for. A single run needs a source at once. -/
def open? (programs : Programs) (tree : Tree) (here : Way) (a : Arguments) : Except Trouble Session := do
  let config ← loadConfig tree here a.config
  let place ← makePlace tree here a
  let watch ← makeWatch place.tree here a
  let s := opened programs here a config place watch
  match watch with
  | some _ => return s.rerun
  | none => return (s.startRun (← readSource place.tree here a.file)).settled

/-- Starts the tool in a folder of a machine whose programs do as given, given what stands behind its name on
the command line. -/
def beginWith (programs : Programs) (tree : Tree) (here : Way) (argv : List String) :
    Except Refusal Session :=
  match Arguments.ofList argv with
  | .error flaw =>
    let message := flaw.message (toolName "tsplay")
    if flaw = .help then .error ⟨.standardOutput, message, 0⟩ else .error ⟨.standardError, message, 2⟩
  | .ok a =>
    match open? programs tree here a with
    | .error t => .error (refused t)
    | .ok s => .ok s

/-- Starts the tool in a folder of a machine with its own programs. -/
def begin (tree : Tree) (here : Way) (argv : List String) : Except Refusal Session :=
  beginWith Place.start tree here argv

/-- The lines that the tool has written, unless it writes for other programs. -/
def lines (s : Session) : List (Channel × String) :=
  let watching := match s.watch with
    | some _ => [(Channel.standardError, "-- watching " ++ s.arguments.file ++ " (Ctrl-C to quit)")]
    | none => []
  watching ++ s.events.flatMap (Event.lines id)

end Session

end Scratchpad.Tool
