import Scratchpad.Proofs.Run.Conservation
import Scratchpad.Proofs.Run.Timers
import Scratchpad.Proofs.Run.Work

/-!
# No run is stuck

Jobs that go on come to rest: each of them does after ten legs at most, however much it has to read, and
none wakes another. Then no job can go on, because each waits for something that has not happened yet. If
no gate is held, all that a run can wait for is its process. So the active run reads from a process that
goes on, and there is none if nobody has the slot. When that process ends, its run ends with it.

## Main definitions

* `Action.ending?`: how a process is made to end, and the outcome of its run.

## Main statements

* `Fits.reads_or_over`: a run that waits while no gate is held reads from its process, or is over.
* `resume_of_settled`: no job can go on in a world that has settled.
* `Slot.exists_end_of_reports`: a run that loses the slot by reports has told how it ended.
* `no_run_is_stuck`: what holds in every world that has settled, and how runs end.
-/

namespace Scratchpad.Run

open Log Sandbox Supervision Slot

variable {workshop : Workshop} {run : Nat} {job : Job} {w w' : Supervision}

/-! ## Worlds that have settled -/

section Fits

variable {printed : Nat → List String} {matchLines : Bool} {v : View} {isWoken : Prop} {stage : Stage}

/-- **A run that waits while no gate is held reads from its process, or is over.** The process goes on, and
the run has read all that it printed. -/
theorem Fits.reads_or_over (h : Fits printed matchLines run v isWoken stage) (hquiet : ¬ isWoken)
    (hfree : ∀ point, v.waits point = false) :
    (∃ p reader batcher nextFlush q, stage = .reading p reader batcher nextFlush ∧ v.Attends p q ∧
      v.phase = some .running ∧ q.control = .alive ∧ q.unread = []) ∨ stage = .ended := by
  cases stage with
  | fresh source => exact absurd h.2 hquiet
  | writing part entry =>
    obtain ⟨-, hwaits⟩ := h.2.resolve_left hquiet
    rw [hfree] at hwaits
    cases hwaits
  | spawning =>
    have hwaits := h.2.resolve_left hquiet
    rw [hfree] at hwaits
    cases hwaits
  | reading p reader batcher nextFlush =>
    obtain ⟨q, hq, hflow, hwait⟩ := h
    obtain ⟨hc, halive, hunread⟩ := hwait.resolve_left hquiet
    exact .inl ⟨p, reader, batcher, nextFlush, q, rfl, hq, (hflow hc).1, halive, hunread⟩
  | awaiting p reader batcher =>
    obtain ⟨q, -, -, -, -, hwait⟩ := h
    obtain ⟨-, hwaits⟩ := hwait.resolve_left hquiet
    rw [hfree] at hwaits
    cases hwaits
  | ended => exact .inr rfl

end Fits

/-- In a world that has settled and in which no gate is held, every job reads or has ended. -/
theorem reads_or_ended {turns : List Turn} (hready : (after workshop turns).ready = [])
    (hfree : (after workshop turns).sandbox.IsFree) (hjob : (after workshop turns).jobs[run]? = some job) :
    (∃ p reader batcher nextFlush q, job.stage = .reading p reader batcher nextFlush ∧
      (after workshop turns).slot.active = some run ∧ (after workshop turns).slot.phase = .running ∧
      (after workshop turns).sandbox.processes[p]? = some q ∧ q.owner = run ∧ q.control = .alive ∧
      q.isKilled = false ∧ q.unread = [] ∧
      ∀ (p' : Nat) (q' : Process), (after workshop turns).sandbox.processes[p']? = some q' →
        q'.owner = run → p' = p) ∨ job.stage = .ended := by
  obtain ⟨log, hworld, hfits⟩ := sound_after workshop turns
  have hwaits : ∀ point, ((after workshop turns).view log run).waits point = false := by
    intro point
    simp [Supervision.view, hworld.gates point (hfree point)]
  rcases (hfits run job hjob).reads_or_over (by simp [hready]) hwaits with
    ⟨p, reader, batcher, nextFlush, q, hs, hq, hphase, halive, hunread⟩ | hs
  · obtain ⟨hp, howner⟩ := owned_eq_some.mp hq.owns
    have ha : (after workshop turns).slot.active = some run := by
      rw [← isSome_phase_view _ log run, hphase]
      rfl
    rw [Supervision.view] at hphase
    dsimp only at hphase
    rw [if_pos ha] at hphase
    refine .inl ⟨p, reader, batcher, nextFlush, q, hs, ha, Option.some.inj hphase, hp, howner, halive,
      hq.isKilled, hunread, ?_⟩
    intro p' q' hq' howner'
    exact (hq.eq_of_owns (owned_eq_some.mpr ⟨hq', howner'⟩)).1.symm
  · exact .inr hs

/-- A run whose job has ended does not have the slot. -/
theorem active_ne_of_ended {turns : List Turn} (hjob : (after workshop turns).jobs[run]? = some job)
    (hended : job.stage = .ended) : (after workshop turns).slot.active ≠ some run := by
  intro ha
  obtain ⟨log, -, hfits⟩ := sound_after workshop turns
  have hover := hfits run job hjob
  rw [hended] at hover
  have hphase : ((after workshop turns).view log run).phase = none := hover.phase
  have hsome := (isSome_phase_view _ log run).mpr ha
  rw [hphase] at hsome
  cases hsome

/-- A job that is put at its own stage is left where it is. -/
theorem atStage_self (hjob : w.jobs[run]? = some job) : w.atStage run job.stage = w := by
  have hjobs : w.jobs.modify run (fun j => { j with stage := job.stage }) = w.jobs := by
    apply List.ext_getElem?
    intro r
    rw [List.getElem?_modify]
    by_cases hr : run = r
    · simp [← hr, hjob]
    · simp [hr]
  rw [atStage, hjobs]

/-- **No job can go on in a world that has settled**, whether gates are held or not. -/
theorem resume_of_settled (hpos : 0 < workshop.settings.flushInterval) {turns : List Turn}
    (hready : (after workshop turns).ready = []) (run : Nat) :
    resume workshop (after workshop turns) run = after workshop turns := by
  obtain ⟨log, hworld, hfits⟩ := sound_after workshop turns
  have htimely := timely_after hpos turns
  generalize after workshop turns = w at hready hfits htimely
  cases hjob : w.jobs[run]? with
  | none => rw [resume, hjob]
  | some job =>
    have hfit := hfits run job hjob
    have hquiet : ¬ run ∈ w.ready := by simp [hready]
    have hon := htimely run job hjob
    cases hs : job.stage with
    | fresh source =>
      rw [hs] at hfit
      exact absurd hfit.2 hquiet
    | writing part entry =>
      rw [hs] at hfit
      obtain ⟨hc, hwaits⟩ := hfit.2.resolve_left hquiet
      have hc' : w.slot.isCancelled run = false := hc
      have hwaits' : (w.sandbox.gate .write).callers.contains run = true := hwaits
      cases part <;>
        simp only [resume, hjob, hs, passGate, hc', hwaits', Bool.false_eq_true, if_false, if_true]
    | spawning =>
      rw [hs] at hfit
      have hwaits : w.sandbox.spawnGate.callers.contains run = true := hfit.2.resolve_left hquiet
      simp only [resume, hjob, hs, hwaits, if_true]
    | reading p reader batcher nextFlush =>
      rw [hs] at hfit
      obtain ⟨q, hq, -, hwait⟩ := hfit
      obtain ⟨hc, halive, hunread⟩ := hwait.resolve_left hquiet
      have hc' : w.slot.isCancelled run = false := hc
      have hp : w.sandbox.processes[p]? = some q := (owned_eq_some.mp hq.owns).1
      have hdue : ¬ nextFlush ≤ w.now := Nat.not_le.mpr (hon p reader batcher nextFlush hs)
      have hmark : w.sandbox.markRead p = w.sandbox := by
        apply Script.modifyProcess_of_eq hp
        rw [← hunread]
      have hcontrolled : (w.sandbox.controlled? p).isSome = true := by
        rw [(w.sandbox.controlled?_eq_some p).mpr ⟨hp, halive⟩]
        rfl
      have hstay := atStage_self hjob
      rw [hs] at hstay
      simp only [resume, hjob, hs, readOutput, hc', Bool.false_eq_true, if_false, flushDue, hdue, hp,
        Option.map_some, Option.getD_some, hunread, hmark, readChunks, hcontrolled, if_true]
      exact hstay
    | awaiting p reader batcher =>
      rw [hs] at hfit
      obtain ⟨q, -, -, -, -, hwait⟩ := hfit
      obtain ⟨hc, hwaits⟩ := hwait.resolve_left hquiet
      have hc' : w.slot.isCancelled run = false := hc
      have hwaits' : w.sandbox.waitGate.callers.contains run = true := hwaits
      simp only [resume, hjob, hs, hc', hwaits', Bool.false_eq_true, if_false, if_true]
    | ended => simp only [resume, hjob, hs]

/-! ## Runs that end -/

/-- **A run that loses the slot by reports has told how it ended**, and that was the last thing told. -/
theorem Slot.Coherent.exists_end_of_reports {s : Slot} (hs : s.Coherent) (ha : s.active = some run)
    {reports : List Move} (hreports : ∀ m ∈ reports, m.reporter?.isSome = true)
    (hend : (reports.foldl Slot.move s).active ≠ some run) :
    ∃ events outcome, (reports.foldl Slot.move s).phase = .idle ∧ (reports.foldl Slot.move s).active = none ∧
      (reports.foldl Slot.move s).lastOutcome = some outcome ∧
      (reports.foldl Slot.move s).subscribers =
        s.subscribers.map (hear (events ++ [.finished run outcome])) := by
  induction reports generalizing s with
  | nil => exact absurd ha hend
  | cons m reports ih =>
    obtain ⟨hm, hrest⟩ := List.forall_mem_cons.mp hreports
    have hsubscribers : (s.move m).subscribers = s.subscribers.map (hear (s.told m)) := by
      cases m with
      | deliver run' entries | setRunning run' | finish run' outcome =>
        exact hs.subscribers_move nofun nofun
      | _ => cases hm
    rw [List.foldl_cons] at hend ⊢
    by_cases ha' : (s.move m).active = some run
    · obtain ⟨events, outcome, hphase, hactive, houtcome, hheard⟩ := ih (hs.move m) ha' hrest hend
      refine ⟨s.told m ++ events, outcome, hphase, hactive, houtcome, ?_⟩
      rw [hheard, hsubscribers, List.map_map]
      apply List.map_congr_left
      intro u _
      rw [Function.comp_apply, hear_hear, List.append_assoc]
    · -- the end of the run itself
      obtain ⟨outcome, rfl⟩ : ∃ outcome, m = .finish run outcome := by
        cases m with
        | deliver run' entries =>
          refine absurd ?_ ha'
          rw [hs.move_deliver]
          split <;> exact ha
        | setRunning run' =>
          refine absurd ?_ ha'
          rw [hs.move_setRunning]
          split <;> exact ha
        | finish run' outcome =>
          by_cases hrun : run' = run
          · exact ⟨outcome, by rw [hrun]⟩
          · refine absurd ?_ ha'
            rw [hs.move_of_reporter? rfl (by simp [ha, Ne.symm hrun])]
            exact ha
        | _ => cases hm
      have hfinish := hs.move_finish run outcome
      rw [if_pos ha] at hfinish
      have hidle : (s.move (.finish run outcome)).active = none := by rw [hfinish]; rfl
      rw [(hs.move _).foldl_reports_of_idle hidle hrest]
      refine ⟨[], outcome, by rw [hfinish]; rfl, hidle, by rw [hfinish]; rfl, ?_⟩
      rw [hsubscribers, Slot.told, if_pos ha]
      rfl

/-- How the latest run ended is the last outcome when nobody has the slot. -/
theorem Slot.lastOutcome_of_finished {moves : List Move} (hlatest : run + 1 = (play moves).handles.length)
    {outcome : Outcome} (hfinished : .finished run outcome ∈ ofRun run (story moves)) :
    (play moves).lastOutcome = some outcome := by
  obtain ⟨blocks, htells, hstory, -⟩ := exists_blocks moves
  have hruns := htells.runs
  rw [← hlatest, List.range_succ] at hruns
  obtain ⟨init, last, rfl, -, hlast⟩ := List.map_eq_append_iff.mp hruns
  obtain ⟨b, rfl, rfl⟩ := List.map_eq_singleton_iff.mp hlast
  have hevents : ofRun b.run (story moves) = b.events := by
    rw [hstory]
    exact htells.ofRun_eq (by simp)
  have houtcome : b.outcome = some outcome := by
    rw [hevents] at hfinished
    simpa [Block.events] using hfinished
  have hshows : Shows (story moves) (play moves) := shows_reached (.subscribe :: moves)
  have hend : story moves = (init.flatMap Block.events ++
      (.started b.run b.source :: b.batches.map (.output b.run))) ++ [.finished b.run outcome] := by
    rw [hstory, List.flatMap_append, List.flatMap_singleton, Block.events, houtcome, Option.toList_some,
      List.map_singleton, List.append_assoc]
  refine hshows.lastOutcome_iff.mpr ⟨b.run, ?_⟩
  rw [hend, latest?_append]
  rfl

/-- How a process is made to end, and the outcome of its run. -/
def Action.ending? : Action → Option (Nat × Outcome)
  | .exit p code => some (p, .completed code)
  | .lose p => some (p, .failed lossMessage)
  | _ => none

/-- A process that is made to end ends so. -/
theorem Action.control_of_ending? {action : Action} {p : Nat} {outcome : Outcome}
    (h : action.ending? = some (p, outcome)) (q : Process) :
    action.addressee? = some p ∧
      ((∃ code, (action.effect q).control = .exited code ∧ outcome = .completed code) ∨
        (action.effect q).control = .lost ∧ outcome = .failed lossMessage) := by
  cases action with
  | exit p' code =>
    obtain ⟨rfl, rfl⟩ : p' = p ∧ .completed code = outcome := by simpa [ending?] using h
    exact ⟨rfl, .inl ⟨code, rfl, rfl⟩⟩
  | lose p' =>
    obtain ⟨rfl, rfl⟩ : p' = p ∧ .failed lossMessage = outcome := by simpa [ending?] using h
    exact ⟨rfl, .inr ⟨rfl, rfl⟩⟩
  | _ => cases h

theorem length_handles_after (workshop : Workshop) (turns : List Turn) :
    (requests turns).length = (after workshop turns).slot.handles.length := by
  obtain ⟨log, hworld, -⟩ := sound_after workshop turns
  exact (length_requests workshop turns).trans hworld.length_jobs

/-- The run of every process has been asked for. -/
theorem exists_request_of_process {turns : List Turn} {p : Nat} {q : Process}
    (hq : (after workshop turns).sandbox.processes[p]? = some q) :
    ∃ req, (requests turns)[q.owner]? = some req := by
  obtain ⟨log, hworld, -⟩ := sound_after workshop turns
  have hlt := hworld.owners p q hq
  rw [← length_requests] at hlt
  exact ⟨_, List.getElem?_eq_getElem hlt⟩

/-- While jobs go on, the active run is not told to end. -/
theorem isCancelled_settle {turns : List Turn} (ha : (after workshop turns).slot.active = some run) :
    (after workshop (turns ++ [.settle])).slot.isCancelled run = false := by
  have hs := coherent_after workshop turns
  obtain ⟨reports, hreports, hslot⟩ := exists_reports_of_turn workshop turns (t := .settle) rfl
  rw [← Bool.not_eq_true, hslot]
  intro hc
  have hc' := hs.isCancelled_of_reports (fun m hm => (hreports m hm).1) hc
  rw [hs.kept run ha] at hc'
  cases hc'

/-- When the process of the active run has ended and no gate is held, the run is over once all jobs have gone
on, and it has told how it ended. -/
theorem exists_end_of_settle {turns : List Turn} {p : Nat} {q : Process}
    (hq : (after workshop turns).sandbox.processes[p]? = some q) (hcontrol : q.control ≠ .alive)
    (ha : (after workshop turns).slot.active = some q.owner) (hfree : (after workshop turns).sandbox.IsFree) :
    ∃ moves outcome events, (after workshop (turns ++ [.settle])).slot = play moves ∧
      (play moves).phase = .idle ∧ (play moves).active = none ∧ (play moves).lastOutcome = some outcome ∧
      (play moves).subscribers = (after workshop turns).slot.subscribers.map
        (hear (events ++ [.finished q.owner outcome])) ∧
      (∀ code, q.control = .exited code → outcome = .completed code) ∧
      (q.control = .lost → outcome = .failed lossMessage) := by
  have hs := coherent_after workshop turns
  have hsettled : after workshop (turns ++ [.settle]) = settle workshop (after workshop turns) :=
    after_append_singleton workshop turns .settle
  have hworks : (after workshop turns).sandbox.Works (after workshop (turns ++ [.settle])).sandbox := by
    rw [hsettled]
    exact works_settle _
  obtain ⟨q', hq', howner, hcontrol'⟩ := hworks.exists_process hq
  obtain ⟨reports, hreports, hslot⟩ := exists_reports_of_turn workshop turns (t := .settle) rfl
  have hreports' : ∀ m ∈ reports, m.reporter?.isSome = true := fun m hm => (hreports m hm).1
  have hkept : (after workshop (turns ++ [.settle])).slot.isCancelled q.owner = false :=
    isCancelled_settle ha
  obtain ⟨req, hreq⟩ := exists_request_of_process hq'
  rw [howner] at hreq
  have hready : (after workshop (turns ++ [.settle])).ready = [] := by
    rw [hsettled]
    exact ready_settle _
  obtain ⟨moves, hplay, hover⟩ := exists_over hreq hq' howner (by rwa [hcontrol']) hkept
    (.inr ⟨hready, hworks.isFree hfree .wait⟩)
  have hlost : (after workshop (turns ++ [.settle])).slot.active ≠ some q.owner := by
    intro ha'
    have hsome := (isSome_phase_view _ (story moves) q.owner).mpr ha'
    rw [hover.phase] at hsome
    cases hsome
  rw [hslot] at hlost
  obtain ⟨events, outcome, hphase, hactive, houtcome, hheard⟩ :=
    hs.exists_end_of_reports ha hreports' hlost
  rw [← hslot, hplay] at hphase hactive houtcome hheard
  have hlatest : q.owner + 1 = (play moves).handles.length := by
    have hrequests : requests (turns ++ [.settle]) = requests turns := by
      rw [requests_append_singleton]
      exact List.append_nil _
    rw [← hplay, hs.latest q.owner ha, ← length_handles_after, ← length_handles_after, hrequests]
  have howns := owned_eq_some.mpr ⟨hq', howner⟩
  refine ⟨moves, outcome, events, hplay, hphase, hactive, houtcome, hheard, ?_, ?_⟩
  · intro code hcode
    have hfinished := (hover.exited hkept p q' code howns (hcontrol'.trans hcode)).2
    exact Option.some.inj (houtcome.symm.trans (lastOutcome_of_finished hlatest hfinished))
  · intro hgone
    have hfinished := (hover.lost hkept p q' howns (hcontrol'.trans hgone)).2
    exact Option.some.inj (houtcome.symm.trans (lastOutcome_of_finished hlatest hfinished))

/-- **A run ends when its process does**, if no gate is held, whatever has not been read by then. -/
theorem ends_with_process {turns : List Turn} {action : Action} {p : Nat} {outcome : Outcome} {q : Process}
    (hending : action.ending? = some (p, outcome))
    (hq : (after workshop turns).sandbox.processes[p]? = some q) (halive : q.control = .alive)
    (ha : (after workshop turns).slot.active = some q.owner) (hfree : (after workshop turns).sandbox.IsFree) :
    (after workshop (turns ++ [.act action, .settle])).slot.phase = .idle ∧
      (after workshop (turns ++ [.act action, .settle])).slot.active = none ∧
      (after workshop (turns ++ [.act action, .settle])).slot.lastOutcome = some outcome ∧
      ∀ u ∈ (after workshop (turns ++ [.act action, .settle])).slot.subscribers, u.isListening = true →
        u.received.getLast? = some (.finished q.owner outcome) := by
  obtain ⟨haddressee, hcontrol⟩ := Action.control_of_ending? hending q
  have howner := action.owner_effect q
  have hacted : after workshop (turns ++ [.act action]) =
      { after workshop turns with
        sandbox := (after workshop turns).sandbox.modifyProcess p action.effect }.wake q.owner := by
    rw [after_append_singleton]
    exact perform_of_controlled haddressee ((Script.controlled?_eq_some _ _).mpr ⟨hq, halive⟩)
  have hq' : (after workshop (turns ++ [.act action])).sandbox.processes[p]? = some (action.effect q) := by
    rw [hacted, sandbox_wake, Script.getElem?_modifyProcess, if_pos rfl, hq]
    rfl
  have ha' : (after workshop (turns ++ [.act action])).slot.active = some (action.effect q).owner := by
    rw [hacted, slot_wake, howner]
    exact ha
  have hfree' : (after workshop (turns ++ [.act action])).sandbox.IsFree := by
    intro point
    rw [hacted, sandbox_wake, Script.gate_modifyProcess]
    exact hfree point
  have hdead : (action.effect q).control ≠ .alive := by
    rcases hcontrol with ⟨code, hcode, -⟩ | ⟨hgone, -⟩
    · simp [hcode]
    · simp [hgone]
  obtain ⟨moves, outcome', events, hplay, hphase, hactive, houtcome, hheard, hexited, hlost⟩ :=
    exists_end_of_settle hq' hdead ha' hfree'
  obtain rfl : outcome' = outcome := by
    rcases hcontrol with ⟨code, hcode, rfl⟩ | ⟨hgone, rfl⟩
    · exact hexited code hcode
    · exact hlost hgone
  rw [List.append_assoc, List.singleton_append] at hplay
  rw [hplay]
  refine ⟨hphase, hactive, houtcome, ?_⟩
  intro u hu hl
  rw [hheard] at hu
  obtain ⟨u', -, rfl⟩ := List.mem_map.mp hu
  rw [isListening_hear] at hl
  rw [hear, if_pos hl, howner, ← List.append_assoc, List.getLast?_concat]

/-! ## No run is stuck -/

/-- **No run is stuck.** Whatever has happened, the world settles: every job that goes on rests after ten legs
at most, and wakes no other. Then no job can go on.

When the world has settled and no gate is held, nobody has the slot, or the program of the active run runs:
its only process goes on, has not been killed, and all that it printed has been read.

If no gate is held and the process of the active run ends or is lost, then once the world has settled the
run has ended and nobody has the slot, whatever had not been read. How the run ended is the last thing that
everyone who listens has been told. -/
theorem no_run_is_stuck (workshop : Workshop) (turns : List Turn) :
    ((∀ (w : Supervision) (run : Nat) (job : Job), w.jobs[run]? = some job →
        goOn workshop run job 10 (depart run job w) = (.rest, resume workshop w run)) ∧
      (settle workshop (after workshop turns)).ready = [] ∧
      (0 < workshop.settings.flushInterval → (after workshop turns).ready = [] →
        ∀ run, resume workshop (after workshop turns) run = after workshop turns)) ∧
    ((after workshop turns).ready = [] → (after workshop turns).sandbox.IsFree →
      (after workshop turns).slot.phase = .idle ∧ (after workshop turns).slot.active = none ∨
      (after workshop turns).slot.phase = .running ∧
        ∃ run p q, (after workshop turns).slot.active = some run ∧
          (after workshop turns).sandbox.processes[p]? = some q ∧ q.owner = run ∧ q.control = .alive ∧
          q.isKilled = false ∧ q.unread = [] ∧
          ∀ (p' : Nat) (q' : Process), (after workshop turns).sandbox.processes[p']? = some q' →
            q'.owner = run → p' = p) ∧
    ∀ action p outcome q, Action.ending? action = some (p, outcome) →
      (after workshop turns).sandbox.processes[p]? = some q → q.control = .alive →
      (after workshop turns).slot.active = some q.owner → (after workshop turns).sandbox.IsFree →
        (after workshop (turns ++ [.act action, .settle])).slot.phase = .idle ∧
          (after workshop (turns ++ [.act action, .settle])).slot.active = none ∧
          (after workshop (turns ++ [.act action, .settle])).slot.lastOutcome = some outcome ∧
          ∀ u ∈ (after workshop (turns ++ [.act action, .settle])).slot.subscribers,
            u.isListening = true → u.received.getLast? = some (.finished q.owner outcome) := by
  refine ⟨⟨?_, ready_settle _, fun hpos hready => resume_of_settled hpos hready⟩, ?_, ?_⟩
  · intro w run job hjob
    exact resume_eq_go hjob
  · intro hready hfree
    cases ha : (after workshop turns).slot.active with
    | none =>
      obtain ⟨moves, -, -, hslot⟩ := exists_honest_moves workshop turns
      have hshows : Shows (chronicle moves) (after workshop turns).slot := hslot ▸ shows_reached moves
      exact .inl ⟨(hshows.idle ha).1, rfl⟩
    | some run =>
      obtain ⟨job, hjob⟩ : ∃ job, (after workshop turns).jobs[run]? = some job := by
        have hlatest := (coherent_after workshop turns).latest run ha
        have hlength := (length_requests workshop turns).symm.trans (length_handles_after workshop turns)
        exact ⟨_, List.getElem?_eq_getElem (by omega)⟩
      rcases reads_or_ended hready hfree hjob with
        ⟨p, _, _, _, q, -, -, hphase, hq, howner, halive, hkilled, hunread, honly⟩ | hs
      · exact .inr ⟨hphase, run, p, q, rfl, hq, howner, halive, hkilled, hunread, honly⟩
      · exact absurd ha (active_ne_of_ended hjob hs)
  · intro action p outcome q hending hq halive ha hfree
    exact ends_with_process hending hq halive ha hfree

/-- A program is started once the gate has been released, and then two chunks are printed and the program
ends before anybody has read them. -/
theorem no_run_is_stuck_unread :
    let workshop : Workshop := ⟨⟨50, 2, "node", "main.mjs"⟩, fun source => .ok source⟩
    let turns : List Turn :=
      [.act (.hold .spawn), .act (.start "a" "x" false .empty), .settle, .act (.release .spawn), .settle]
    let busy : List Turn := turns ++ [.act (.emit 0 "one\ntwo"), .act (.emit 0 "\nthree")]
    (after workshop turns).ready = [] ∧ (after workshop turns).sandbox.IsFree ∧
      (∀ run, resume workshop (after workshop turns) run = after workshop turns) ∧
      (after workshop turns).slot.phase = .running ∧
      (after workshop busy).sandbox.processes[0]? =
        some ⟨0, ["one\ntwo", "\nthree"], .alive, false, true⟩ ∧
      (after workshop busy).slot.active = some 0 ∧ (after workshop busy).sandbox.IsFree ∧
      (after workshop (busy ++ [.act (.exit 0 3), .settle])).slot.phase = .idle ∧
      (after workshop (busy ++ [.act (.exit 0 3), .settle])).slot.lastOutcome = some (.completed 3) := by
  intro workshop turns busy
  have hready : (after workshop turns).ready = [] := by decide +kernel
  have hfree : (after workshop turns).sandbox.IsFree := by
    intro point
    cases point <;> decide +kernel
  have hactive : (after workshop turns).slot.active = some 0 := by decide +kernel
  have hq : (after workshop busy).sandbox.processes[0]? =
      some ⟨0, ["one\ntwo", "\nthree"], .alive, false, true⟩ := by decide +kernel
  have hactive' : (after workshop busy).slot.active = some 0 := by decide +kernel
  have hfree' : (after workshop busy).sandbox.IsFree := by
    intro point
    cases point <;> decide +kernel
  obtain ⟨⟨-, -, hsettled⟩, hrunning, -⟩ := no_run_is_stuck workshop turns
  obtain ⟨-, -, hends⟩ := no_run_is_stuck workshop busy
  obtain ⟨hidle, -, houtcome, -⟩ := hends (.exit 0 3) 0 (.completed 3) _ rfl hq rfl hactive' hfree'
  refine ⟨hready, hfree, hsettled (by decide) hready, ?_, hq, hactive', hfree', hidle, houtcome⟩
  rcases hrunning hready hfree with ⟨-, hnone⟩ | ⟨hphase, -⟩
  · rw [hactive] at hnone
    cases hnone
  · exact hphase

end Scratchpad.Run
