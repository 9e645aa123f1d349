import Scratchpad.Proofs.Run.Actions
import Scratchpad.Proofs.Sandbox.Sequel
import Scratchpad.Proofs.Slot.Sequel

/-!
# A world that goes on from an earlier one

When nobody has the slot and nothing waits or is going to fail, the world goes on as a new one does. What
was before shows in numbers only: runs, generations, processes and moments are counted from where the
earlier world was left. A job in the later world goes the same legs as its counterpart in the new one, and
whatever is done to both keeps them in step.

## Main definitions

* `Supervision.AtRest`: nothing of a world is still under way.
* `Stage.behind`, `Job.behind`, `Leg.behind`: a stage, a job and a leg when there has been a world before.
* `Action.readdress`, `Turn.readdress`: what is done when there have been processes before.
* `Supervision.Sequel`: a world goes on from an earlier one as another one does from nothing.

## Main statements

* `Supervision.Sequel.go`, `Supervision.Sequel.resume`: a job goes on in both in step.
* `Supervision.Sequel.turn`: whatever is done to both keeps them in step.
-/

namespace Scratchpad.Run

open Log Sandbox

/-! ## Counting from an earlier world -/

/-- Nothing of a world is still under way. -/
structure Supervision.AtRest (w : Supervision) : Prop where
  runs : w.slot.handles.length = w.jobs.length
  active : w.slot.active = none
  ready : w.ready = []
  ended : ∀ job ∈ w.jobs, job.stage = .ended
  gates : ∀ point, w.sandbox.gate point = ⟨false, []⟩
  refusals : w.sandbox.refusals = []
  writeFailure : w.sandbox.writeFailure = none
  spawnFailure : w.sandbox.spawnFailure = none

section Behind

variable (past : Supervision)

/-- A stage when there has been a world before. -/
def Stage.behind : Stage → Stage
  | .reading process reader batcher nextFlush =>
    .reading (past.sandbox.processes.length + process) reader batcher (past.now + nextFlush)
  | .awaiting process reader batcher =>
    .awaiting (past.sandbox.processes.length + process) reader batcher
  | stage => stage

/-- A job when there has been a world before. -/
def Job.behind (job : Job) : Job :=
  { job with
    generation := past.slot.generation + job.generation
    stage := job.stage.behind past }

/-- A leg when there has been a world before. -/
def Leg.behind : Leg → Leg
  | .read process reader batcher nextFlush =>
    .read (past.sandbox.processes.length + process) reader batcher (past.now + nextFlush)
  | .awaitExit process reader batcher =>
    .awaitExit (past.sandbox.processes.length + process) reader batcher
  | .close process reader batcher => .close (past.sandbox.processes.length + process) reader batcher
  | leg => leg

end Behind

/-- What is done when there have been processes before. -/
def Action.readdress (processes : Nat) : Action → Action
  | .emit process chunk => .emit (processes + process) chunk
  | .exit process code => .exit (processes + process) code
  | .lose process => .lose (processes + process)
  | action => action

theorem Action.addressee?_readdress (processes : Nat) (action : Action) :
    (action.readdress processes).addressee? = action.addressee?.map (processes + ·) := by
  cases action <;> rfl

/-- Whether somebody begins to watch, or no longer watches. -/
def Action.isAboutSubscribers : Action → Bool
  | .subscribe => true
  | .unsubscribe _ => true
  | _ => false

/-- What happens when there have been processes before. -/
def Turn.readdress (processes : Nat) : Turn → Turn
  | .act action => .act (action.readdress processes)
  | .settle => .settle

/-- Whether somebody begins to watch, or no longer watches. -/
def Turn.isAboutSubscribers : Turn → Bool
  | .act action => action.isAboutSubscribers
  | .settle => false

namespace Supervision

/-- A world goes on from an earlier one as another one does from nothing. -/
structure Sequel (past v w : Supervision) : Prop where
  rest : past.AtRest
  slot : Slot.Sequel past.slot v.slot w.slot
  sandbox : Script.Sequel past.jobs.length past.sandbox v.sandbox w.sandbox
  jobs : w.jobs = past.jobs ++ v.jobs.map (·.behind past)
  ready : w.ready = v.ready.map (past.jobs.length + ·)
  now : w.now = past.now + v.now

namespace Sequel

variable {workshop : Workshop} {past v w : Supervision} {run : Nat} {job : Job}

theorem getElem?_jobs (h : Sequel past v w) (run : Nat) :
    w.jobs[past.jobs.length + run]? = v.jobs[run]?.map (·.behind past) := by
  rw [h.jobs, getElem?_append_map]

theorem isCancelled_eq (h : Sequel past v w) (run : Nat) :
    w.slot.isCancelled (past.jobs.length + run) = v.slot.isCancelled run := by
  rw [← h.rest.runs]
  exact h.slot.isCancelled_eq run

theorem isHeld_eq (h : Sequel past v w) (point : Point) :
    (w.sandbox.gate point).isHeld = (v.sandbox.gate point).isHeld := by
  rw [h.sandbox.gate, Gate.renumber]

theorem contains_callers_eq (h : Sequel past v w) (point : Point) (run : Nat) :
    (w.sandbox.gate point).callers.contains (past.jobs.length + run) =
      (v.sandbox.gate point).callers.contains run := by
  rw [h.sandbox.gate]
  exact Gate.contains_callers_renumber ..

/-! ## What a run does -/

theorem with_slot (h : Sequel past v w) {s t : Slot} (hs : Slot.Sequel past.slot s t) :
    Sequel past { v with slot := s } { w with slot := t } :=
  ⟨h.rest, hs, h.sandbox, h.jobs, h.ready, h.now⟩

theorem with_sandbox (h : Sequel past v w) {s t : Script}
    (hs : Script.Sequel past.jobs.length past.sandbox s t) :
    Sequel past { v with sandbox := s } { w with sandbox := t } :=
  ⟨h.rest, h.slot, hs, h.jobs, h.ready, h.now⟩

theorem deliver (h : Sequel past v w) (generation run : Nat) (entries : List Entry) :
    Sequel past { v with slot := v.slot.deliver generation run entries }
      { w with
        slot := w.slot.deliver (past.slot.generation + generation) (past.jobs.length + run) entries } := by
  rw [← h.rest.runs]
  exact h.with_slot (h.slot.deliver generation run entries)

theorem finish (h : Sequel past v w) (generation run : Nat) (outcome : Outcome) :
    Sequel past { v with slot := v.slot.finish generation run outcome }
      { w with
        slot := w.slot.finish (past.slot.generation + generation) (past.jobs.length + run) outcome } := by
  rw [← h.rest.runs]
  exact h.with_slot (h.slot.finish generation run outcome)

theorem atStage (h : Sequel past v w) (run : Nat) (stage : Stage) :
    Sequel past (v.atStage run stage) (w.atStage (past.jobs.length + run) (stage.behind past)) := by
  refine ⟨h.rest, h.slot, h.sandbox, ?_, h.ready, h.now⟩
  rw [Supervision.atStage, h.jobs]
  exact modify_append_map past.jobs v.jobs run fun _ => rfl

theorem conclude (h : Sequel past v w) (run : Nat) (job : Job) (outcome : Outcome) :
    Sequel past (v.conclude run job outcome)
      (w.conclude (past.jobs.length + run) (job.behind past) outcome) :=
  (h.finish job.generation run outcome).atStage run .ended

theorem fail (h : Sequel past v w) (run : Nat) (job : Job) (message : String) :
    Sequel past (v.fail run job message) (w.fail (past.jobs.length + run) (job.behind past) message) :=
  (h.deliver job.generation run [Entry.ofFailure message]).conclude run job (.failed message)

theorem abandon (h : Sequel past v w) (run p : Nat) :
    Sequel past (v.abandon run p)
      (w.abandon (past.jobs.length + run) (past.sandbox.processes.length + p)) :=
  (h.with_sandbox ((h.sandbox.kill p).dismiss p)).atStage run .ended

theorem deliverBatch (h : Sequel past v w) (run : Nat) (job : Job) (batch : Option (List Entry)) :
    Sequel past (v.deliverBatch run job batch)
      (w.deliverBatch (past.jobs.length + run) (job.behind past) batch) := by
  cases batch with
  | none => exact h
  | some entries => exact h.deliver job.generation run entries

theorem readChunks (h : Sequel past v w) (run : Nat) (job : Job) (reader : LineReader)
    (batcher : Batcher Entry) (chunks : List String) :
    (w.readChunks (past.jobs.length + run) (job.behind past) reader batcher chunks).2 =
        (v.readChunks run job reader batcher chunks).2 ∧
      Sequel past (v.readChunks run job reader batcher chunks).1
        (w.readChunks (past.jobs.length + run) (job.behind past) reader batcher chunks).1 := by
  induction chunks generalizing v w reader batcher with
  | nil => exact ⟨rfl, h⟩
  | cons chunk chunks ih => exact ih (h.deliverBatch run job _) _ _

/-- What is due in one of them is due in the other, and the next time is as far away. -/
theorem flushDue (h : Sequel past v w) (workshop : Workshop) (run : Nat) (job : Job) (batcher : Batcher Entry)
    (nextFlush : Nat) :
    (Supervision.flushDue workshop w (past.jobs.length + run) (job.behind past) batcher
        (past.now + nextFlush)).2 =
        ((Supervision.flushDue workshop v run job batcher nextFlush).2.1,
          past.now + (Supervision.flushDue workshop v run job batcher nextFlush).2.2) ∧
      Sequel past (Supervision.flushDue workshop v run job batcher nextFlush).1
        (Supervision.flushDue workshop w (past.jobs.length + run) (job.behind past) batcher
          (past.now + nextFlush)).1 := by
  simp only [Supervision.flushDue, h.now, Nat.add_le_add_iff_left]
  split
  · exact ⟨by rw [Nat.add_assoc], h.deliverBatch run job _⟩
  · exact ⟨rfl, h⟩

theorem close (h : Sequel past v w) (run : Nat) (job : Job) (p : Nat) (reader : LineReader)
    (batcher : Batcher Entry) :
    Sequel past (v.close run job p reader batcher)
      (w.close (past.jobs.length + run) (job.behind past) (past.sandbox.processes.length + p) reader
        batcher) := by
  rw [Supervision.close, Supervision.close]
  have hdelivered := (h.deliverBatch run job (batcher.push reader.flush.1.toList).1).deliverBatch run job
    (batcher.push reader.flush.1.toList).2.drain.1
  have hdismissed := hdelivered.with_sandbox (hdelivered.sandbox.dismiss p)
  have hcontrol : ∀ process? : Option Process,
      (process?.map (·.renumber past.jobs.length)).map (·.control) = process?.map (·.control) := by
    rintro (_ | q) <;> rfl
  dsimp only
  rw [hdelivered.sandbox.getElem?_processes, hcontrol]
  cases (Option.map (fun q : Process => q.control) _).getD Control.lost with
  | exited code => exact hdismissed.conclude run job (.completed code)
  | alive => exact hdismissed.fail run job _
  | lost => exact hdismissed.fail run job _

/-! ## A job that goes on -/

theorem read (h : Sequel past v w) (run : Nat) (job : Job) (p : Nat) (reader : LineReader)
    (batcher : Batcher Entry) (nextFlush : Nat) :
    (Supervision.go workshop (past.jobs.length + run) (job.behind past) w
        (.read (past.sandbox.processes.length + p) reader batcher (past.now + nextFlush))).1 =
        (Supervision.go workshop run job v (.read p reader batcher nextFlush)).1.behind past ∧
      Sequel past (Supervision.go workshop run job v (.read p reader batcher nextFlush)).2
        (Supervision.go workshop (past.jobs.length + run) (job.behind past) w
          (.read (past.sandbox.processes.length + p) reader batcher (past.now + nextFlush))).2 := by
  simp only [Supervision.go, h.isCancelled_eq]
  split
  · exact ⟨rfl, h.abandon run p⟩
  · obtain ⟨hrest, hdue⟩ := h.flushDue workshop run job batcher nextFlush
    generalize Supervision.flushDue workshop v run job batcher nextFlush = due at hrest hdue ⊢
    generalize Supervision.flushDue workshop w _ _ batcher _ = due' at hrest hdue ⊢
    obtain ⟨v₁, batcher₁, nextFlush₁⟩ := due
    obtain ⟨w₁, rest⟩ := due'
    obtain rfl : rest = (batcher₁, past.now + nextFlush₁) := hrest
    have hunread : ∀ process? : Option Process,
        (process?.map (·.renumber past.jobs.length)).map (·.unread) = process?.map (·.unread) := by
      rintro (_ | q) <;> rfl
    dsimp only at hdue ⊢
    rw [hdue.sandbox.getElem?_processes, hunread]
    obtain ⟨hreader, hread⟩ := (hdue.with_sandbox (hdue.sandbox.markRead p)).readChunks run job reader
      batcher₁ ((v₁.sandbox.processes[p]?.map (·.unread)).getD [])
    generalize Supervision.readChunks { v₁ with sandbox := _ } run job reader batcher₁ _ = read
      at hreader hread ⊢
    generalize Supervision.readChunks { w₁ with sandbox := _ } _ _ reader batcher₁ _ = read'
      at hreader hread ⊢
    obtain ⟨v₂, reader₂, batcher₂⟩ := read
    obtain ⟨w₂, rest⟩ := read'
    obtain rfl : rest = (reader₂, batcher₂) := hreader
    dsimp only at hread ⊢
    rw [hread.sandbox.controlled?_eq, Option.isSome_map]
    split
    · exact ⟨rfl, hread.atStage run (.reading p reader₂ batcher₂ nextFlush₁)⟩
    · exact ⟨rfl, hread⟩

/-- **One leg of a job's way is the same in both.** -/
theorem go (h : Sequel past v w) (run : Nat) (job : Job) (leg : Leg) :
    (Supervision.go workshop (past.jobs.length + run) (job.behind past) w (leg.behind past)).1 =
        (Supervision.go workshop run job v leg).1.behind past ∧
      Sequel past (Supervision.go workshop run job v leg).2
        (Supervision.go workshop (past.jobs.length + run) (job.behind past) w (leg.behind past)).2 := by
  cases leg with
  | begin source =>
    simp only [Leg.behind, Supervision.go, Job.behind]
    split
    · exact ⟨rfl, h.fail run job _⟩
    · exact ⟨rfl, h⟩
  | reach part entry =>
    have hheld : w.sandbox.writeGate.isHeld = v.sandbox.writeGate.isHeld := h.isHeld_eq .write
    simp only [Leg.behind, Supervision.go, h.isCancelled_eq, hheld]
    split
    · exact ⟨rfl, h.atStage run .ended⟩
    · split
      · exact ⟨rfl, (h.with_sandbox (h.sandbox.await .write run)).atStage run (.writing part entry)⟩
      · exact ⟨rfl, h⟩
  | write part entry =>
    obtain ⟨hanswer, hwritten⟩ := h.sandbox.write (part.path workshop) (part.contents entry)
    simp only [Leg.behind, Supervision.go]
    generalize v.sandbox.write (part.path workshop) (part.contents entry) = written
      at hanswer hwritten ⊢
    generalize w.sandbox.write (part.path workshop) (part.contents entry) = written'
      at hanswer hwritten ⊢
    obtain ⟨answer, s⟩ := written
    obtain ⟨answer', s'⟩ := written'
    obtain rfl : answer' = answer := hanswer
    cases answer' with
    | error failure => exact ⟨rfl, (h.with_sandbox hwritten).fail run job failure.message⟩
    | ok _ =>
      refine ⟨?_, h.with_sandbox hwritten⟩
      cases part <;> rfl
  | reachSpawn =>
    have hheld : w.sandbox.spawnGate.isHeld = v.sandbox.spawnGate.isHeld := h.isHeld_eq .spawn
    simp only [Leg.behind, Supervision.go, hheld]
    split
    · exact ⟨rfl, (h.with_sandbox (h.sandbox.await .spawn run)).atStage run .spawning⟩
    · exact ⟨rfl, h⟩
  | spawn =>
    obtain ⟨hanswer, hspawned⟩ := h.sandbox.spawn run
      ⟨workshop.settings.program, [workshop.settings.entryFile], job.environment⟩
    simp only [Leg.behind, Supervision.go, Job.behind] at hanswer ⊢
    generalize v.sandbox.spawn run _ = spawned at hanswer hspawned ⊢
    generalize w.sandbox.spawn _ _ = spawned' at hanswer hspawned ⊢
    obtain ⟨answer, s⟩ := spawned
    obtain ⟨answer', s'⟩ := spawned'
    obtain rfl : answer' = answer.map (past.sandbox.processes.length + ·) := hanswer
    have hstarted := h.with_sandbox hspawned
    cases answer with
    | error failure => exact ⟨rfl, hstarted.fail run job failure.message⟩
    | ok p =>
      have hcancelled := hstarted.isCancelled_eq run
      dsimp only [Except.map] at hcancelled ⊢
      rw [hcancelled]
      split
      · exact ⟨rfl, hstarted.abandon run p⟩
      · exact ⟨by rw [h.now], hstarted.with_slot (h.slot.setRunning job.generation)⟩
  | read p reader batcher nextFlush => exact h.read run job p reader batcher nextFlush
  | awaitExit p reader batcher =>
    have hheld : w.sandbox.waitGate.isHeld = v.sandbox.waitGate.isHeld := h.isHeld_eq .wait
    simp only [Leg.behind, Supervision.go, hheld]
    split
    · exact ⟨rfl, (h.with_sandbox (h.sandbox.await .wait run)).atStage run (.awaiting p reader batcher)⟩
    · exact ⟨rfl, h⟩
  | close p reader batcher => exact ⟨rfl, h.close run job p reader batcher⟩
  | rest => exact ⟨rfl, h⟩

/-- A job departs in both in step. -/
theorem depart (h : Sequel past v w) (run : Nat) (job : Job) :
    (Supervision.depart (past.jobs.length + run) (job.behind past) w).1 =
        (Supervision.depart run job v).1.behind past ∧
      Sequel past (Supervision.depart run job v).2
        (Supervision.depart (past.jobs.length + run) (job.behind past) w).2 := by
  have hwrite := h.contains_callers_eq .write run
  have hspawn : w.sandbox.spawnGate.callers.contains (past.jobs.length + run) =
    v.sandbox.spawnGate.callers.contains run := h.contains_callers_eq .spawn run
  have hwait : w.sandbox.waitGate.callers.contains (past.jobs.length + run) =
    v.sandbox.waitGate.callers.contains run := h.contains_callers_eq .wait run
  simp only [Supervision.depart, Job.behind]
  cases job.stage with
  | fresh source => exact ⟨rfl, h⟩
  | writing part entry =>
    simp only [Stage.behind, h.isCancelled_eq, hwrite]
    split
    · exact ⟨rfl, (h.with_sandbox (h.sandbox.leave .write run)).atStage run .ended⟩
    · split <;> exact ⟨rfl, h⟩
  | spawning =>
    simp only [Stage.behind, hspawn]
    split <;> exact ⟨rfl, h⟩
  | reading p reader batcher nextFlush => exact ⟨rfl, h⟩
  | awaiting p reader batcher =>
    simp only [Stage.behind, h.isCancelled_eq, hwait]
    split
    · exact ⟨rfl, (h.with_sandbox (h.sandbox.leave .wait run)).abandon run p⟩
    · split <;> exact ⟨rfl, h⟩
  | ended => exact ⟨rfl, h⟩

/-- **A job goes on in both in step.** -/
theorem resume (h : Sequel past v w) (run : Nat) :
    Sequel past (Supervision.resume workshop v run)
      (Supervision.resume workshop w (past.jobs.length + run)) := by
  cases hjob : v.jobs[run]? with
  | none =>
    have hjob' : w.jobs[past.jobs.length + run]? = none := by rw [h.getElem?_jobs, hjob, Option.map_none]
    rw [Supervision.resume, Supervision.resume, hjob, hjob']
    exact h
  | some job =>
    have hjob' : w.jobs[past.jobs.length + run]? = some (job.behind past) := by
      rw [h.getElem?_jobs, hjob, Option.map_some]
    have hrest : Leg.rest = Leg.rest.behind past ∧ Sequel past (Supervision.resume workshop v run)
        (Supervision.resume workshop w (past.jobs.length + run)) :=
      resume_induction₂ (R := fun position position' => position'.1 = position.1.behind past ∧
        Sequel past position.2 position'.2) hjob hjob' (h.depart run job) (by
          rintro leg v leg' w ⟨rfl, hsequel⟩
          exact hsequel.go run job leg)
    exact hrest.2

/-- Jobs go on in both, one after another. -/
theorem settle (h : Sequel past v w) :
    Sequel past (Supervision.settle workshop v) (Supervision.settle workshop w) := by
  have hfold : ∀ (runs : List Nat) {v w : Supervision}, Sequel past v w →
      Sequel past (runs.foldl (Supervision.resume workshop) v)
        ((runs.map (past.jobs.length + ·)).foldl (Supervision.resume workshop) w) := by
    intro runs
    induction runs with
    | nil => exact fun h => h
    | cons run runs ih => exact fun h => ih (h.resume run)
  have hhalted : Sequel past { v with ready := [] } { w with ready := [] } :=
    ⟨h.rest, h.slot, h.sandbox, h.jobs, rfl, h.now⟩
  rw [Supervision.settle, Supervision.settle, h.ready]
  exact hfold v.ready hhalted

/-! ## Time -/

/-- Time is nothing to a job that has ended. -/
theorem elapseJob_of_ended {run time : Nat} (hended : ∀ job, w.jobs[run]? = some job → job.stage = .ended) :
    Supervision.elapseJob workshop w run time = w := by
  rw [Supervision.elapseJob]
  cases hjob : w.jobs[run]? with
  | none => rfl
  | some job =>
    dsimp only
    rw [hended job hjob]

theorem elapseJob (h : Sequel past v w) (run time : Nat) :
    Sequel past (Supervision.elapseJob workshop v run time)
      (Supervision.elapseJob workshop w (past.jobs.length + run) (past.now + time)) := by
  rw [Supervision.elapseJob, Supervision.elapseJob, h.getElem?_jobs]
  cases v.jobs[run]? with
  | none => exact h
  | some job =>
    dsimp only [Option.map_some, Job.behind]
    cases job.stage with
    | reading p reader batcher nextFlush =>
      have hnext : nextTick (past.now + nextFlush) workshop.settings.flushInterval (past.now + time) =
          past.now + nextTick nextFlush workshop.settings.flushInterval time := by
        rw [nextTick, nextTick, Nat.add_sub_add_left, Nat.add_assoc]
      simp only [Stage.behind, Nat.add_le_add_iff_left, hnext]
      split
      · exact (h.deliverBatch run job batcher.tick.1).atStage run (.reading p reader batcher.tick.2 _)
      · exact h
    | _ => exact h

/-- **Time goes by in both.** -/
theorem elapse (h : Sequel past v w) (ms : Nat) :
    Sequel past (Supervision.elapse workshop v ms) (Supervision.elapse workshop w ms) := by
  have hfold : ∀ (runs : List Nat) (time : Nat) {v w : Supervision}, Sequel past v w →
      Sequel past (runs.foldl (fun v run => Supervision.elapseJob workshop v run time) v)
        ((runs.map (past.jobs.length + ·)).foldl
          (fun w run => Supervision.elapseJob workshop w run (past.now + time)) w) := by
    intro runs time
    induction runs with
    | nil => exact fun h => h
    | cons run runs ih => exact fun h => ih (h.elapseJob run time)
  have hended : ∀ time, (List.range past.jobs.length).foldl
      (fun w run => Supervision.elapseJob workshop w run time) w = w := by
    intro time
    refine List.foldlRecOn (motive := fun w' => w' = w) _ _ rfl ?_
    rintro _ rfl run hrun
    refine elapseJob_of_ended fun job hjob => h.rest.ended job ?_
    rw [h.jobs, List.getElem?_append_left (List.mem_range.mp hrun)] at hjob
    exact List.mem_of_getElem? hjob
  have hlength : w.jobs.length = past.jobs.length + v.jobs.length := by
    rw [h.jobs, List.length_append, List.length_map]
  have hall := hfold (List.range v.jobs.length) (v.now + ms) h
  rw [Supervision.elapse, Supervision.elapse, h.now, hlength, List.range_add, List.foldl_append, hended,
    Nat.add_assoc]
  exact ⟨hall.rest, hall.slot, hall.sandbox, hall.jobs, hall.ready, rfl⟩

/-! ## What is done from outside -/

theorem wake (h : Sequel past v w) (run : Nat) :
    Sequel past (v.wake run) (w.wake (past.jobs.length + run)) := by
  have hcontains : w.ready.contains (past.jobs.length + run) = v.ready.contains run := by
    rw [h.ready]
    exact Gate.contains_callers_renumber past.jobs.length ⟨false, v.ready⟩ run
  rw [Supervision.wake, Supervision.wake, hcontains]
  split
  · exact h
  · refine ⟨h.rest, h.slot, h.sandbox, h.jobs, ?_, h.now⟩
    rw [h.ready, List.map_append, List.map_singleton]

theorem foldl_wake (h : Sequel past v w) (runs : List Nat) :
    Sequel past (runs.foldl Supervision.wake v)
      ((runs.map (past.jobs.length + ·)).foldl Supervision.wake w) := by
  induction runs generalizing v w with
  | nil => exact h
  | cons run runs ih => exact ih (h.wake run)

theorem wakeActive (h : Sequel past v w) : Sequel past v.wakeActive w.wakeActive := by
  rw [Supervision.wakeActive, Supervision.wakeActive, h.slot.active, h.rest.runs]
  cases v.slot.active with
  | none => exact h
  | some run =>
    dsimp only [Option.map_some]
    rw [h.getElem?_jobs]
    cases v.jobs[run]? with
    | none => exact h
    | some job =>
      dsimp only [Option.map_some, Job.behind]
      cases job.stage with
      | spawning => exact h
      | _ => exact h.wake run

/-- A run that is started in both is the next one in both. -/
theorem start (h : Sequel past v w) (source text : String) (matchLines : Bool)
    (environment : Environment) :
    Sequel past (v.start source text matchLines environment)
      (w.start source text matchLines environment) := by
  have hactive := h.wakeActive
  have hslot := hactive.slot.start source
  have hlength : w.wakeActive.jobs.length = past.jobs.length + v.wakeActive.jobs.length := by
    rw [hactive.jobs, List.length_append, List.length_map]
  refine ⟨h.rest, hslot, hactive.sandbox, ?_, ?_, hactive.now⟩
  · simp only [Supervision.start]
    rw [hslot.generation, hactive.jobs, List.map_append, List.append_assoc]
    rfl
  · simp only [Supervision.start]
    rw [hlength, hactive.ready, List.map_append]
    rfl

/-- **A process that is told what to do is told the same in both**, also if it cannot be told. -/
theorem addressed (h : Sequel past v w) {action : Action} {p : Nat} (ha : action.addressee? = some p) :
    Sequel past (perform workshop v action).2
      (perform workshop w (action.readdress past.sandbox.processes.length)).2 := by
  have ha' : (action.readdress past.sandbox.processes.length).addressee? =
      some (past.sandbox.processes.length + p) := by
    rw [Action.addressee?_readdress, ha, Option.map_some]
  have hcontrolled := h.sandbox.controlled?_eq p
  cases hq : v.sandbox.controlled? p with
  | none =>
    rw [hq, Option.map_none] at hcontrolled
    rw [perform_of_uncontrolled ha hq, perform_of_uncontrolled ha' hcontrolled]
    exact h
  | some q =>
    rw [hq, Option.map_some] at hcontrolled
    rw [perform_of_controlled ha hq, perform_of_controlled ha' hcontrolled]
    refine (h.with_sandbox (h.sandbox.modifyProcess p fun q => ?_)).wake q.owner
    cases action with
    | emit p' chunk =>
      simp only [Action.readdress, Action.effect, Process.renumber]
      split <;> rfl
    | _ => rfl

/-- **Whatever is done to both keeps them in step.** -/
theorem act (h : Sequel past v w) {action : Action} (hsubscribers : action.isAboutSubscribers = false) :
    Sequel past (perform workshop v action).2
      (perform workshop w (action.readdress past.sandbox.processes.length)).2 := by
  cases action with
  | start source text matchLines environment => exact h.start source text matchLines environment
  | stop => exact h.wakeActive.with_slot h.wakeActive.slot.killActive
  | clear => exact h.with_slot h.slot.clear
  | subscribe => cases hsubscribers
  | unsubscribe subscriber => cases hsubscribers
  | emit p chunk => exact h.addressed rfl
  | exit p code => exact h.addressed rfl
  | lose p => exact h.addressed rfl
  | hold point => exact h.with_sandbox (h.sandbox.hold point)
  | release point =>
    have hreleased := (h.with_sandbox (h.sandbox.release point)).foldl_wake (v.sandbox.gate point).callers
    simp only [Action.readdress, perform, h.sandbox.gate point]
    exact hreleased
  | failWrite reason => exact h.with_sandbox (h.sandbox.failWrite reason)
  | failSpawn reason => exact h.with_sandbox (h.sandbox.failSpawn reason)
  | advance ms => exact h.settle.elapse ms

theorem turn (h : Sequel past v w) {t : Turn} (hsubscribers : t.isAboutSubscribers = false) :
    Sequel past (Supervision.turn workshop v t)
      (Supervision.turn workshop w (t.readdress past.sandbox.processes.length)) := by
  cases t with
  | act action => exact h.act hsubscribers
  | settle => exact h.settle

/-- **The first run that is started in a world at rest begins a sequel**, as it begins a new world. -/
theorem first (h : past.AtRest) (source text : String) (matchLines : Bool) (environment : Environment) :
    Sequel past (initial.start source text matchLines environment)
      (past.start source text matchLines environment) := by
  have hwake : past.wakeActive = past := by rw [Supervision.wakeActive, h.active]
  have hslot := Slot.Sequel.first h.active source
  have hsandbox : Script.Sequel past.jobs.length past.sandbox Script.empty past.sandbox :=
    .first h.gates h.refusals h.writeFailure h.spawnFailure
  rw [Supervision.start, Supervision.start, hwake]
  refine ⟨h, hslot, hsandbox, ?_, ?_, rfl⟩
  · dsimp only
    rw [hslot.generation]
    rfl
  · dsimp only
    rw [h.ready]
    rfl

end Sequel

end Supervision

end Scratchpad.Run
