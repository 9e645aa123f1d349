import Scratchpad.Main
import Scratchpad.Proofs.Machine.Course
import Scratchpad.Proofs.Tool.Moments

/-!
# Single runs

Without a watch the tool runs its source once. If the program can be started, writes to its standard output
only and exits, then what the tool has written in the end is a matter of the text that the program has written
and of its code: one line for each entry of the text on the channel of its method, a last line that tells the
code, and the code itself. If the program cannot be started, the user is told why. When output was read and
when it was delivered makes no difference.

## Main definitions

* `Session.written`: what has been written on a channel.
* `Session.Ends`: the tool has ended, and these lines have been written.
* `outputLines`, `errorLines`: the lines of entries and of an outcome.
* `ComesOf`: what may come of a launch.
* `Session.Starts`: the only run of the tool has just been started, and its program exits.

## Main statements

* `comesOf_launch`: what comes of a launch.
* `Session.ends_of_reports`: what has been written when a run has been reported.
* `Session.single_run_ends`: what has been written in the end.
-/

namespace Scratchpad

open Log Run

/-- The lines of entries on the standard output. -/
def outputLines (entries : List Entry) : List String :=
  (entries.filter fun e => e.method = .log ∨ e.method = .info).map Entry.shown

/-- The lines of entries and of an outcome on the standard error. -/
def errorLines (entries : List Entry) (outcome : Outcome) : List String :=
  (entries.filter fun e => e.method = .warn ∨ e.method = .error).map Entry.shown ++ [outcome.shown]

/-- Everything that is written for the events of a run that is over. -/
theorem Run.Reports.flatMap_lines {run : Nat} {source : String} {entries : List Entry} {outcome : Outcome}
    {events : List (Event Nat Entry)} (h : Reports run source entries outcome events) :
    events.flatMap (Event.lines id) =
      entries.map (fun e => (e.method.channel, e.shown)) ++ [(.standardError, outcome.shown)] := by
  obtain ⟨batches, rfl, -, rfl⟩ := h
  have hbatches : (batches.map (Event.output run)).flatMap (Event.lines id) =
      batches.flatten.map fun e => (e.method.channel, e.shown) := by
    rw [List.flatMap_map, List.map_flatten, List.flatMap_def]
    rfl
  rw [List.cons_append, List.flatMap_cons, List.flatMap_append, hbatches]
  rfl

namespace Tool

open CommandLine Machine Supervision

/-! ## Launches -/

/-- What may come of the launch of a source: it does not compile, a file cannot be written, the program cannot be
started, or it runs. -/
def ComesOf (plan : Plan) (text : String) (launched : Except Obstacle Course) : Prop :=
  (∃ failure, composed ⟨plan.settings, compile⟩ plan.matchesLines text = .error failure ∧
    launched = .error (.compile failure)) ∨
  ∃ entry, composed ⟨plan.settings, compile⟩ plan.matchesLines text = .ok entry ∧
    ((∃ path failure, (path = preambleFile ∨ path = plan.settings.entryFile) ∧
        launched = .error (.write path failure)) ∨
      (∃ fault, launched = .error (.spawn plan.settings.program fault)) ∨ ∃ course, launched = .ok course)

/-- **What comes of a launch** is one of these. -/
theorem comesOf_launch (programs : Programs) (plan : Plan) (place : Place) (text : String) :
    ComesOf plan text (launch programs plan place text).1 := by
  unfold ComesOf
  delta launch
  dsimp only
  generalize composed ⟨plan.settings, compile⟩ plan.matchesLines text = code
  generalize preamble = contents
  cases code with
  | error failure => exact .inl ⟨failure, rfl, rfl⟩
  | ok entry =>
    refine .inr ⟨entry, rfl, ?_⟩
    dsimp only
    cases place.write preambleFile contents with
    | error failure => exact .inl ⟨preambleFile, failure, .inl rfl, rfl⟩
    | ok place =>
      dsimp only
      cases place.write plan.settings.entryFile entry with
      | error failure => exact .inl ⟨plan.settings.entryFile, failure, .inr rfl, rfl⟩
      | ok place =>
        dsimp only
        cases programs place ⟨plan.settings.program, [plan.settings.entryFile], plan.environment⟩ with
        | error fault => exact .inr (.inl ⟨fault, rfl⟩)
        | ok started => exact .inr (.inr ⟨started.1, rfl⟩)

namespace Session

/-! ## What has been written -/

/-- What has been written on a channel. -/
def written (s : Session) (channel : Channel) : String :=
  String.join ((s.report.filter (·.1 == channel)).map (·.2 ++ "\n"))

/-- The tool has ended with a code, and unless it was to write for other programs it has written lines on its
channels. -/
structure Ends (s : Session) (asJson : Bool) (output error : List String) (code : UInt8) : Prop where
  code : s.code = some code
  output : asJson = false → s.written .standardOutput = String.join (output.map (· ++ "\n"))
  error : asJson = false → s.written .standardError = String.join (error.map (· ++ "\n"))

variable {s : Session} {source : String} {entries : List Log.Entry} {outcome : Outcome}

/-- No outcome is known while no end has been told. -/
theorem outcomeCode?_eq_none (h : ∀ outcome, .finished 0 outcome ∉ s.events) : s.outcomeCode? = none := by
  rw [outcomeCode?, Option.map_eq_none_iff, firstOutcome?, List.findSome?_eq_none_iff]
  intro e he
  cases e with
  | finished run outcome =>
    refine if_neg ?_
    rintro rfl
    exact h outcome he
  | started run source => rfl
  | output run entries => rfl

/-- The outcome is known when a run has been reported. -/
theorem outcomeCode?_of_reports (h : Reports 0 source entries outcome s.events) :
    s.outcomeCode? = some (codeByte outcome.exitCode) := by
  obtain ⟨batches, hevents, -, -⟩ := h
  have hbatches : (batches.map (Event.output 0)).findSome? (outcomeOf? 0) = none := by
    rw [List.findSome?_eq_none_iff]
    intro e he
    obtain ⟨batch, -, rfl⟩ := List.mem_map.mp he
    rfl
  rw [outcomeCode?, firstOutcome?, hevents, List.cons_append, List.findSome?_cons, List.findSome?_append,
    hbatches]
  rfl

/-- The lines of entries that go to a channel are those of the entries that do. -/
theorem map_filter_shown (entries : List Log.Entry) (channel : Channel) :
    ((entries.map fun e => (e.method.channel, e.shown)).filter (·.1 == channel)).map (·.2 ++ "\n") =
      ((entries.filter fun e => e.method.channel == channel).map Log.Entry.shown).map (· ++ "\n") := by
  rw [List.filter_map, List.map_map, List.map_map]
  rfl

/-- **What has been written when a run has been reported.** -/
theorem ends_of_reports (h : Reports 0 source entries outcome s.events) (hwatch : s.watch = none)
    (hcode : s.code = s.outcomeCode?) :
    s.Ends s.arguments.asJson (outputLines entries) (errorLines entries outcome)
      (codeByte outcome.exitCode) := by
  have hreport : s.arguments.asJson = false → s.report =
      entries.map (fun e => (e.method.channel, e.shown)) ++ [(.standardError, outcome.shown)] := by
    intro htext
    rw [report, htext, if_neg Bool.false_ne_true, lines, hwatch]
    exact h.flatMap_lines
  constructor
  case code => rw [hcode, outcomeCode?_of_reports h]
  case output =>
    intro htext
    have hmethods : (fun e : Log.Entry => e.method.channel == .standardOutput) =
        fun e => decide (e.method = .log ∨ e.method = .info) := by
      funext e
      cases e.method <;> rfl
    rw [written, hreport htext, List.filter_append, List.map_append, map_filter_shown, hmethods, outputLines]
    simp
  case error =>
    intro htext
    have hmethods : (fun e : Log.Entry => e.method.channel == .standardError) =
        fun e => decide (e.method = .warn ∨ e.method = .error) := by
      funext e
      cases e.method <;> rfl
    rw [written, hreport htext, List.filter_append, List.map_append, map_filter_shown, hmethods, errorLines,
      List.map_append]
    simp

/-! ## The beginning -/

variable {programs : Programs} {here : Way} {a : Arguments} {config : Config} {place : Place} {text : String}

/-- The tool begins when it has read what it needs. -/
theorem beginWith_eq {tree : Tree} {argv : List String} (hargv : Arguments.ofList argv = .ok a)
    (hwatch : a.isWatched = false) (hconfig : loadConfig tree here a.config = .ok config)
    (hplace : makePlace tree here a = .ok place) (htext : readSource place.tree here a.file = .ok text) :
    beginWith programs tree here argv =
      .ok ((opened programs here a config place none).startRun text).settled := by
  have hopen : open? programs tree here a =
      .ok ((opened programs here a config place none).startRun text).settled := by
    simp [open?, makeWatch, hconfig, hplace, hwatch, htext, bind, Except.bind, pure, Except.pure]
  rw [beginWith, hargv]
  dsimp only
  rw [hopen]

/-- What the tool runs. -/
def request (a : Arguments) (config : Config) (text : String) : Request :=
  ⟨a.file, text, (a.plan config).matchesLines, (a.plan config).environment⟩

theorem startRun_eq (s : Session) (text : String) :
    s.startRun text = s.startLaunched text (launch s.programs s.plan s.place text).1
      (launch s.programs s.plan s.place text).2 := by
  delta startRun
  dsimp only

theorem supervision_startLaunched (s : Session) (text : String) (launched : Except Obstacle Course)
    (place' : Place) :
    (s.startLaunched text launched place').supervision = settle s.workshop
      (Supervision.start
        { s.supervision with sandbox := brace s.supervision.sandbox launched } s.arguments.file text
        s.plan.matchesLines s.plan.environment) := by
  delta startLaunched
  dsimp only [act, step, perform]
  rfl

/-- The tool when its only run has been started, given what comes of the launch. -/
def launchedOnce (programs : Programs) (here : Way) (a : Arguments) (config : Config) (place : Place)
    (text : String) (launched : Except Obstacle Course) (place' : Place) : Session :=
  (opened programs here a config place none).startLaunched text launched place'

section Launched

variable {launched : Except Obstacle Course} {place' : Place}

theorem supervision_launchedOnce :
    (launchedOnce programs here a config place text launched place').supervision =
      Supervision.begin ⟨(a.plan config).settings, compile⟩
        (begun (request a config text) (brace Sandbox.Script.empty launched)) 0
        (firstJob (request a config text)) (request a config text).text := by
  rw [launchedOnce, supervision_startLaunched]
  exact settle_start ⟨(a.plan config).settings, compile⟩ (request a config text) _

/-- What has been told when the program could not be started. -/
theorem events_of_obstacle {obstacle : Obstacle} (h : ComesOf (a.plan config) text (.error obstacle)) :
    (launchedOnce programs here a config place text (.error obstacle) place').events =
      failureEvents a.file obstacle.message := by
  have hsubscribers :
      (launchedOnce programs here a config place text (.error obstacle) place').supervision.slot.subscribers =
        [⟨true, failureEvents (request a config text).source obstacle.message⟩] := by
    rw [supervision_launchedOnce]
    rcases h with
      ⟨failure, hcode, hlaunch⟩ | ⟨entry, hcode, ⟨path, failure, hpath, hlaunch⟩ | ⟨fault, hlaunch⟩ |
        ⟨course, hlaunch⟩⟩
    · obtain rfl := Except.error.inj hlaunch
      rw [Obstacle.message_compile]
      exact subscribers_of_uncompiled hcode
    · obtain rfl := Except.error.inj hlaunch
      rw [Obstacle.message_write, brace_write]
      exact subscribers_of_unwritten hcode hpath rfl
    · obtain rfl := Except.error.inj hlaunch
      have hempty : ({ Sandbox.Script.empty with refusals := [] } : Sandbox.Script) = Sandbox.Script.empty := rfl
      rw [Obstacle.message_spawn, brace_spawn, hempty]
      exact subscribers_of_unspawned hcode
    · cases hlaunch
  rw [events, hsubscribers]
  rfl

/-- **A run whose program could not be started has ended** before any time goes by. -/
theorem ends_of_obstacle {obstacle : Obstacle} (h : ComesOf (a.plan config) text (.error obstacle)) :
    (launchedOnce programs here a config place text (.error obstacle) place').settled.finish.Ends a.asJson []
      [(Log.Entry.ofFailure obstacle.message).shown, (Outcome.failed obstacle.message).shown] 1 := by
  have hevents : (launchedOnce programs here a config place text (.error obstacle) place').events =
      failureEvents a.file obstacle.message := events_of_obstacle h
  have hwatch : (launchedOnce programs here a config place text (.error obstacle) place').watch = none := rfl
  have hcode : (launchedOnce programs here a config place text (.error obstacle) place').code = none := rfl
  have harguments : (launchedOnce programs here a config place text (.error obstacle) place').arguments = a := rfl
  generalize launchedOnce programs here a config place text (.error obstacle) place' = s at *
  have hreports : Reports 0 a.file [Log.Entry.ofFailure obstacle.message] (.failed obstacle.message)
      s.events := by
    rw [hevents]
    exact ⟨[[Log.Entry.ofFailure obstacle.message]], rfl, by simp, rfl⟩
  have hsettled : s.settled.events = s.events := by
    rw [settled_eq]
    rfl
  have hended : s.settled.code = s.settled.outcomeCode? := by
    rw [code_settled hwatch hcode, outcomeCode?_settled]
  rw [← hsettled] at hreports
  have hone : codeByte (Outcome.failed obstacle.message).exitCode = 1 := rfl
  rw [finish, passMoments_of_code (hended.trans (outcomeCode?_of_reports hreports)), ← hone]
  have hends := ends_of_reports hreports (by rw [settled_eq]; exact hwatch) hended
  have harguments' : s.settled.arguments = a := by
    rw [settled_eq]
    exact harguments
  rwa [harguments'] at hends

end Launched

/-! ## Programs that run -/

theorem events_eq {received : List (Event Nat Log.Entry)}
    (h : s.supervision.slot.subscribers = [⟨true, received⟩]) : s.events = received := by
  rw [events, h]
  rfl

section Runs

variable {course : Course} {place' : Place} {code : UInt8} {t : Session} {turns : List Turn}

/-- What a program is going to do that exits: it prints its chunks, and then it exits. -/
theorem map_action_happeningsOf (s : Session) (process : Nat) (hending : course.ending = .exited code) :
    (s.happeningsOf process course).map (·.action) =
      (course.chunks.map (·.2)).map (.emit process) ++ [.exit process (Int32.ofNat code.toNat)] := by
  rw [happeningsOf, hending]
  simp [Ending.code]

/-- A program does things in the order of time. -/
theorem pairwise_happeningsOf (s : Session) (process : Nat) (hending : course.ending = .exited code) :
    (s.happeningsOf process course).Pairwise fun a b => a.time ≤ b.time := by
  rw [happeningsOf, hending]
  dsimp only
  refine List.pairwise_append.mpr ⟨?_, List.pairwise_singleton .., ?_⟩
  · exact List.pairwise_map.mpr (course.pairwise_chunks.imp fun h => Nat.add_le_add_left h _)
  · intro h hh h' hh'
    obtain ⟨chunk, hchunk, rfl⟩ := List.mem_map.mp hh
    obtain rfl := List.mem_singleton.mp hh'
    exact Nat.add_le_add_left (Course.time_le_closing hchunk) _

theorem doing?_of_mem_happeningsOf (s : Session) (process : Nat) (hending : course.ending = .exited code)
    {h : Happening} (hh : h ∈ s.happeningsOf process course) :
    Turn.doing? (.act h.action) = some h.action := by
  rw [happeningsOf, hending] at hh
  rcases List.mem_append.mp hh with hprint | hexit
  · obtain ⟨chunk, -, rfl⟩ := List.mem_map.mp hprint
    rfl
  · rw [List.mem_singleton.mp hexit]
    rfl

/-- What holds of a session whose only run has just been started, with a program that exits. -/
structure Starts (s : Session) (req : Request) (course : Course) (code : UInt8) : Prop where
  supervision : s.supervision = after s.workshop (opening req)
  performs : Performs s.workshop req [] .alive (opening req)
  happenings : ∃ earlier : Session, s.happenings = earlier.happeningsOf 0 course
  ending : course.ending = .exited code
  watch : s.watch = none
  waiting : s.debouncer.waiting = none
  code : s.code = none

namespace Starts

variable {req : Request}

/-- The world after turns of the session. -/
theorem foldl_turns (h : Starts s req course code) (turns : List Turn) :
    turns.foldl (turn s.workshop) s.supervision = after s.workshop (opening req ++ turns) := by
  rw [h.supervision, after, after, List.foldl_append]

theorem actions (h : Starts s req course code) : s.happenings.map (·.action) =
    (course.chunks.map (·.2)).map (.emit 0) ++ [.exit 0 (Int32.ofNat code.toNat)] := by
  obtain ⟨earlier, hhappenings⟩ := h.happenings
  rw [hhappenings]
  exact map_action_happeningsOf earlier 0 h.ending

/-- Everything has been played when nothing is going to happen any more. -/
theorem played (h : Starts s req course code) (hturns : turns.filterMap Turn.doing? = s.happenings.map (·.action)) :
    Performs s.workshop req (course.chunks.map (·.2)) (.exited (Int32.ofNat code.toNat))
      (opening req ++ turns) := by
  rw [h.actions] at hturns
  exact h.performs.play hturns

/-- The program goes on for as long as more is going to happen. -/
theorem exists_performs (h : Starts s req course code) (hpasses : Passes s t turns) (hmore : t.happenings ≠ []) :
    ∃ chunks, Performs s.workshop req chunks .alive (opening req ++ turns) := by
  obtain ⟨init, last, hlast⟩ := (List.eq_nil_or_concat' t.happenings).resolve_left hmore
  have hdoings := hpasses.doings
  rw [h.actions, hlast, List.map_append, List.map_singleton, ← List.append_assoc,
    List.append_singleton_inj] at hdoings
  obtain ⟨printed, -, -, hprinted, -⟩ := List.map_eq_append_iff.mp hdoings.1.symm
  exact ⟨[] ++ printed, h.performs.go hprinted.symm⟩

/-- **When the program has been played to its end**, in whatever turns, its run has been reported. -/
theorem reports (h : Starts s req course code) (hturns : turns.filterMap Turn.doing? = s.happenings.map (·.action))
    (hready : (turns.foldl (turn s.workshop) s.supervision).ready = []) :
    Reports 0 req.source
      (LineReader.entriesOf req.matchLines (String.join (course.chunks.map (·.2))))
      (.completed (Int32.ofNat code.toNat))
      ({ s with supervision := turns.foldl (turn s.workshop) s.supervision } : Session).events := by
  rw [h.foldl_turns] at hready ⊢
  obtain ⟨received, hsubscribers, hreports⟩ := (h.played hturns).reports hready
  rwa [events_eq hsubscribers]

/-- The program has ended when nothing more is going to happen, and not before. -/
theorem outcomeCode?_eq_none_iff (h : Starts s req course code) (hpasses : Passes s t turns) :
    t.outcomeCode? = none ↔ t.happenings ≠ [] := by
  have hready := hpasses.ready
  rw [hpasses.supervision_eq, h.foldl_turns] at hready
  constructor
  · intro hnone hempty
    have hturns : turns.filterMap Turn.doing? = s.happenings.map (·.action) := by
      simpa [hempty] using hpasses.doings
    obtain ⟨received, hsubscribers, hreports⟩ := (h.played hturns).reports hready
    rw [← h.foldl_turns, ← hpasses.supervision_eq] at hsubscribers
    rw [← events_eq hsubscribers] at hreports
    rw [outcomeCode?_of_reports hreports] at hnone
    cases hnone
  · intro hmore
    obtain ⟨chunks, hperforms⟩ := h.exists_performs hpasses hmore
    obtain ⟨received, hsubscribers, hsilent⟩ := hperforms.silent hready
    rw [← h.foldl_turns, ← hpasses.supervision_eq] at hsubscribers
    rw [← events_eq hsubscribers] at hsilent
    exact outcomeCode?_eq_none hsilent

/-- There is one job. -/
theorem length_jobs (h : Starts s req course code) (hpasses : Passes s t turns) :
    t.supervision.jobs.length = 1 := by
  have hrequests : requests (opening req ++ turns) = [req] := by
    by_cases hmore : t.happenings = []
    · exact (h.played (by simpa [hmore] using hpasses.doings)).requests
    · obtain ⟨chunks, hperforms⟩ := h.exists_performs hpasses hmore
      exact hperforms.requests
  rw [hpasses.supervision_eq, h.foldl_turns, ← length_requests, hrequests]
  rfl

/-- The session as it begins has become itself. -/
theorem passes (h : Starts s req course code) : Passes s s [] := by
  obtain ⟨earlier, hhappenings⟩ := h.happenings
  refine Passes.refl ?_ ?_ ?_
  · rw [hhappenings]
    exact pairwise_happeningsOf earlier 0 h.ending
  · rw [hhappenings]
    exact fun _ hh => doing?_of_mem_happeningsOf earlier 0 h.ending hh
  · rw [h.supervision]
    exact ready_opening s.workshop req

theorem outcomeCode?_eq_none_start (h : Starts s req course code) : s.outcomeCode? = none := by
  rw [h.outcomeCode?_eq_none_iff h.passes]
  intro hempty
  have hactions := h.actions
  rw [hempty] at hactions
  simp at hactions

/-- The tool does not end before its program. -/
theorem settled_eq_self (h : Starts s req course code) : s.settled = s := by
  have hcode : s.settled.code = s.code := by
    rw [code_settled h.watch h.code, h.outcomeCode?_eq_none_start, h.code]
  rw [settled_eq, hcode]

/-- **Everything has been played in the end**, and the tool has ended with the run. -/
theorem exists_turns_finish (h : Starts s req course code) :
    ∃ turns, Passes s s.finish turns ∧ s.finish.happenings = [] ∧
      s.finish.code = s.finish.outcomeCode? := by
  refine exists_passes_passMoments h.watch h.waiting (fun _ _ hpasses => h.length_jobs hpasses)
    (fun _ _ hpasses => h.outcomeCode?_eq_none_iff hpasses) _ h.passes ?_ ?_
  · rw [h.code, h.outcomeCode?_eq_none_start]
  · have hone : 1 ≤ patience := by decide
    rw [moments]
    split <;> omega

/-- A code is told as it is. -/
theorem codeByte_completed (code : UInt8) :
    codeByte (Outcome.completed (Int32.ofNat code.toNat)).exitCode = code := by
  have hlt := code.toNat_lt
  have hword : (Int32.ofNat code.toNat).toInt = code.toNat := Int32.toInt_ofNat_of_lt (by omega)
  have hsmall : ((code.toNat : Int) % 256).toNat = code.toNat := by omega
  rw [Outcome.exitCode, codeByte, hword, hsmall]
  exact UInt8.ofNat_toNat

/-- **When its program has been played to its end**, in whatever turns, the tool ends, and what it has written
is a matter of the text and the code of its program. -/
theorem ends (h : Starts s req course code)
    (houtput : ∀ print ∈ course.prints, print.channel = .standardOutput)
    (hturns : turns.filterMap Turn.doing? = s.happenings.map (·.action))
    (hready : (turns.foldl (turn s.workshop) s.supervision).ready = []) {t : Session}
    (hframe : ∃ happenings code, t = { s with
      supervision := turns.foldl (turn s.workshop) s.supervision, happenings := happenings, code := code })
    (hcode : t.code = t.outcomeCode?) :
    t.Ends s.arguments.asJson (outputLines (LineReader.entriesOf req.matchLines (Utf8.decode course.output)))
      (errorLines (LineReader.entriesOf req.matchLines (Utf8.decode course.output))
        (.completed (Int32.ofNat code.toNat))) code := by
  have hreports := h.reports hturns hready
  rw [Course.join_chunks (by simp [h.ending]) houtput] at hreports
  obtain ⟨happenings, code', rfl⟩ := hframe
  have hends := ends_of_reports (s := { s with
    supervision := turns.foldl (turn s.workshop) s.supervision, happenings := happenings, code := code' })
    hreports h.watch hcode
  rwa [codeByte_completed] at hends

end Starts

/-- A run starts so if its source has code and its program runs and exits. -/
theorem starts_launchedOnce {entry : String}
    (hcode : composed ⟨(a.plan config).settings, compile⟩ (a.plan config).matchesLines text = .ok entry)
    (hending : course.ending = .exited code) :
    Starts (launchedOnce programs here a config place text (.ok course) place') (request a config text)
      course code := by
  have hworkshop : (launchedOnce programs here a config place text (.ok course) place').workshop =
      ⟨(a.plan config).settings, compile⟩ := rfl
  constructor
  case supervision =>
    rw [hworkshop, after_opening, supervision_launchedOnce]
    rfl
  case performs =>
    rw [hworkshop]
    exact performs_opening hcode
  case happenings => exact ⟨opened programs here a config place none, rfl⟩
  case ending => exact hending
  case watch => rfl
  case waiting => rfl
  case code => rfl

end Runs

/-! ## Single runs -/

/-- **A single run writes what its program says**, and the tool ends with its code. The user asks for a run
without a watch, and the configuration and the source can be read. Then the tool begins.

If the source does not compile, a file cannot be written or the program cannot be started, then nothing is
written to the standard output, and the standard error holds the entry and the outcome that tell why. The code
is 1.

If the program writes to its standard output only and exits with a code, then the tool writes the lines of the
entries of everything that the program has written, each on the channel of its method, and last the line of the
outcome, and it ends with the same code. It makes no difference at which times output is read and delivered: so
it is after any turns in which the program does what it does, and nothing else is done, once all jobs have gone
on. -/
theorem single_run_ends (programs : Programs) (tree : Tree) (here : Way) (argv : List String) {a : Arguments}
    {config : Config} {place : Place} {text : String} (hargv : Arguments.ofList argv = .ok a)
    (hwatch : a.isWatched = false) (hconfig : loadConfig tree here a.config = .ok config)
    (hplace : makePlace tree here a = .ok place) (htext : readSource place.tree here a.file = .ok text) :
    ∃ s, beginWith programs tree here argv = .ok s ∧
      (∀ obstacle, (launch programs (a.plan config) place text).1 = .error obstacle →
        s.finish.Ends a.asJson []
          [(Log.Entry.ofFailure obstacle.message).shown, (Outcome.failed obstacle.message).shown] 1) ∧
      ∀ course code, (launch programs (a.plan config) place text).1 = .ok course →
        course.ending = .exited code → (∀ print ∈ course.prints, print.channel = .standardOutput) →
          let entries :=
            LineReader.entriesOf (a.plan config).matchesLines (Utf8.decode course.output)
          let output := outputLines entries
          let error := errorLines entries (.completed (Int32.ofNat code.toNat))
          s.finish.Ends a.asJson output error code ∧
            ∀ turns : List Turn, turns.filterMap Turn.doing? = s.happenings.map (·.action) →
              (turns.foldl (turn s.workshop) s.supervision).ready = [] →
                ({ s with supervision := turns.foldl (turn s.workshop) s.supervision } : Session).settled.Ends
                  a.asJson output error code := by
  have hcomes := comesOf_launch programs (a.plan config) place text
  have hstart : (opened programs here a config place none).startRun text =
      launchedOnce programs here a config place text (launch programs (a.plan config) place text).1
        (launch programs (a.plan config) place text).2 := startRun_eq ..
  refine ⟨_, beginWith_eq hargv hwatch hconfig hplace htext, ?_⟩
  rw [hstart]
  generalize launch programs (a.plan config) place text = launched at hcomes
  obtain ⟨launched, place'⟩ := launched
  refine ⟨?_, ?_⟩
  · rintro obstacle rfl
    exact ends_of_obstacle hcomes
  · rintro course code rfl hending houtput
    obtain ⟨entry, hcode⟩ : ∃ entry, composed ⟨(a.plan config).settings, compile⟩
        (a.plan config).matchesLines text = .ok entry := by
      rcases hcomes with ⟨_, -, hlaunched⟩ | ⟨entry, hcode, -⟩
      · cases hlaunched
      · exact ⟨entry, hcode⟩
    have hstarts : Starts (launchedOnce programs here a config place text (.ok course) place')
        (request a config text) course code := starts_launchedOnce hcode hending
    have hasJson : a.asJson =
        (launchedOnce programs here a config place text (.ok course) place').arguments.asJson := rfl
    rw [hasJson]
    generalize launchedOnce programs here a config place text (.ok course) place' = s at hstarts
    rw [hstarts.settled_eq_self]
    constructor
    · obtain ⟨turns, hpasses, hempty, hended⟩ := hstarts.exists_turns_finish
      have hturns : turns.filterMap Turn.doing? = s.happenings.map (·.action) := by
        simpa [hempty] using hpasses.doings
      have hready := hpasses.ready
      rw [hpasses.supervision_eq] at hready
      exact hstarts.ends houtput hturns hready hpasses.frame hended
    · intro turns hturns hready
      refine hstarts.ends houtput hturns hready ?_ ?_
      · rw [settled_eq]
        exact ⟨s.happenings, _, rfl⟩
      · rw [outcomeCode?_settled]
        exact code_settled hstarts.watch hstarts.code

/-- A program prints two lines in two fragments, the second one without a line feed, and exits with a code. -/
theorem single_run_ends_fragments :
    let text := "console.log(1); console.error(2); process.exit(3)"
    let tree : Tree := ⟨[(["home"], .folder), (["home", "main.ts"], .file (Utf8.encode text))]⟩
    let argv := ["main.ts", "--no-match-lines"]
    let a : Arguments := ⟨"main.ts", false, false, [], false, none, none, none⟩
    let course : Course :=
      { prints := [⟨3, .standardOutput, Utf8.encode "__LOG__ 1\n__E"⟩,
          ⟨90, .standardOutput, Utf8.encode "RR__ 2"⟩]
        ending := .exited 3
        duration := 95 }
    let programs : Programs := fun place _ => .ok (course, place)
    Arguments.ofList argv = .ok a ∧ a.isWatched = false ∧ loadConfig tree ["home"] a.config = .ok {} ∧
    ∃ place, makePlace tree ["home"] a = .ok place ∧ readSource place.tree ["home"] a.file = .ok text ∧
      (launch programs (a.plan {}) place text).1 = .ok course ∧
      ∃ s, beginWith programs tree ["home"] argv = .ok s ∧ s.finish.code = some 3 ∧
        s.finish.written .standardOutput = "[log] 1\n" ∧
        s.finish.written .standardError = "[error] 2\n-- exited with code 3\n" := by
  intro text tree argv a course programs
  have hargv : Arguments.ofList argv = .ok a := by decide +kernel
  have hconfig : loadConfig tree ["home"] a.config = .ok {} := rfl
  have hplace : makePlace tree ["home"] a =
      .ok ⟨tree.plant ["tmp", "tsplay-0"] .folder, ["home"], scratchFolder⟩ := rfl
  have htext : readSource (tree.plant ["tmp", "tsplay-0"] .folder) ["home"] a.file = .ok text := by
    decide +kernel
  have hlaunch : (launch programs (a.plan {})
      ⟨tree.plant ["tmp", "tsplay-0"] .folder, ["home"], scratchFolder⟩ text).1 = .ok course := by
    decide +kernel
  have houtput : ∀ print ∈ course.prints, print.channel = .standardOutput := by decide +kernel
  have hprinted : course.output = Utf8.encode "__LOG__ 1\n__ERR__ 2" := by
    have hordered : course.ordered = course.prints := List.mergeSort_of_pairwise (by decide +kernel)
    rw [Course.output, hordered]
    decide +kernel
  have hentries : Log.LineReader.entriesOf (a.plan {}).matchesLines (Utf8.decode course.output) =
      [⟨.log, none, "1"⟩, ⟨.error, none, "2"⟩] := by
    rw [hprinted]
    decide +kernel
  obtain ⟨s, hs, -, hends⟩ := single_run_ends programs tree ["home"] argv hargv rfl hconfig hplace htext
  obtain ⟨⟨hcode, hout, herr⟩, -⟩ := hends course 3 hlaunch rfl houtput
  rw [hentries] at hout herr
  refine ⟨hargv, rfl, hconfig, _, hplace, htext, hlaunch, s, hs, hcode, ?_, ?_⟩
  · rw [hout rfl]
    decide +kernel
  · rw [herr rfl]
    decide +kernel

end Session

end Tool

end Scratchpad
