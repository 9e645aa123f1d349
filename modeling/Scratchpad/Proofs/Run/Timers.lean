import Scratchpad.Proofs.Run.Itinerary

/-!
# Timers

A job that reads has a timer, which goes off when what has been collected is to be delivered. A timer that
has gone off is set to a later time, both when its job goes on and when time goes by. So it never stands at
a time that has passed, and while time stands still no timer is a reason for a job to go on.

## Main definitions

* `Job.IsOnTime`, `OnTime`: the timer of a job goes off later than now.
* `Stage.elapse`: what becomes of a stage when time goes by.
* `Timely`: every timer does.

## Main statements

* `onTime_go`, `isOnTime_resume`: on whichever leg a job comes to rest, it is on time.
* `Timely.elapse`: when time has gone by, every timer that went off goes off later.
* `timely_after`: after any history every timer goes off later.
-/

namespace Scratchpad.Run

open Log Sandbox Supervision

variable {workshop : Workshop} {run : Nat} {job : Job} {w w' : Supervision}

/-! ## A job that comes to rest -/

/-- The timer of a job that reads goes off later than now. -/
def Job.IsOnTime (now : Nat) (job : Job) : Prop :=
  ∀ p reader batcher nextFlush, job.stage = .reading p reader batcher nextFlush → now < nextFlush

/-- A job that rests is on time. -/
def OnTime (run : Nat) : Leg × Supervision → Prop
  | (.rest, w) => ∀ job, w.jobs[run]? = some job → job.IsOnTime w.now
  | _ => True

/-- A job is on time at every stage at which it does not read. -/
theorem OnTime.of_atStage {stage : Stage} (h : ∀ p reader batcher nextFlush,
    stage = .reading p reader batcher nextFlush → w.now < nextFlush) :
    OnTime run (.rest, w.atStage run stage) := by
  intro job hjob
  rw [Job.IsOnTime, stage_of_atStage hjob]
  exact h

theorem OnTime.of_atStage_ne {stage : Stage}
    (h : ∀ p reader batcher nextFlush, stage ≠ .reading p reader batcher nextFlush) :
    OnTime run (.rest, w.atStage run stage) :=
  .of_atStage fun p reader batcher nextFlush hstage => absurd hstage (h p reader batcher nextFlush)

/-- Once what has been collected has been delivered, it is not time to do so again. -/
theorem lt_flushDue (hpos : 0 < workshop.settings.flushInterval) (w : Supervision) (batcher : Batcher Entry)
    (nextFlush : Nat) : w.now < (flushDue workshop w run job batcher nextFlush).2.2 := by
  rw [flushDue]
  split
  · dsimp only
    omega
  · dsimp only
    omega

/-- **On whichever leg a job comes to rest, it is on time.** -/
theorem onTime_go (hpos : 0 < workshop.settings.flushInterval) {leg : Leg} (h : OnTime run (leg, w)) :
    OnTime run (go workshop run job w leg) := by
  have hended : ∀ w : Supervision, OnTime run (.rest, w.atStage run .ended) := fun w => .of_atStage_ne (by simp)
  cases leg with
  | begin source =>
    rw [go]
    split
    · exact hended _
    · trivial
  | reach part entry =>
    rw [go]
    split
    · exact hended w
    · split
      · exact .of_atStage_ne (by simp)
      · trivial
  | write part entry =>
    rw [go]
    split
    · exact hended _
    · cases part <;> trivial
  | reachSpawn =>
    rw [go]
    split
    · exact .of_atStage_ne (by simp)
    · trivial
  | spawn =>
    rw [go]
    dsimp only
    split
    · exact hended _
    · split
      · exact hended _
      · trivial
  | read p reader batcher nextFlush =>
    rw [go]
    split
    · exact hended _
    · have hnow : (flushDue workshop w run job batcher nextFlush).1.now = w.now :=
        (Spares.flushDue w batcher nextFlush).now
      have hlt : w.now < (flushDue workshop w run job batcher nextFlush).2.2 :=
        lt_flushDue hpos w batcher nextFlush
      generalize flushDue workshop w run job batcher nextFlush = due at hnow hlt ⊢
      dsimp only
      split
      · apply OnTime.of_atStage
        intro p' reader' batcher' nextFlush' hstage
        obtain ⟨-, -, -, rfl⟩ := Stage.reading.inj hstage
        have hread : ∀ w reader batcher chunks, (readChunks w run job reader batcher chunks).1.now = w.now :=
          fun w reader batcher chunks => (Spares.readChunks w reader batcher chunks).now
        exact lt_of_eq_of_lt ((hread _ _ _ _).trans hnow) hlt
      · trivial
  | awaitExit p reader batcher =>
    rw [go]
    split
    · exact .of_atStage_ne (by simp)
    · trivial
  | close p reader batcher =>
    rw [go, close]
    dsimp only
    split <;> exact hended _
  | rest => exact h

theorem onTime_depart (hjob : w.jobs[run]? = some job) : OnTime run (depart run job w) := by
  have hended : ∀ w : Supervision, OnTime run (.rest, w.atStage run .ended) := fun w => .of_atStage_ne (by simp)
  have hstay : (∀ p reader batcher nextFlush, job.stage ≠ .reading p reader batcher nextFlush) →
      OnTime run (.rest, w) := by
    intro hs job' hjob' p reader batcher nextFlush hstage
    obtain rfl : job = job' := Option.some.inj (hjob.symm.trans hjob')
    exact absurd hstage (hs p reader batcher nextFlush)
  rw [depart]
  split
  · trivial
  · rename_i hs
    split
    · exact hended _
    · split
      · exact hstay (by simp [hs])
      · trivial
  · rename_i hs
    split
    · exact hstay (by simp [hs])
    · trivial
  · trivial
  · rename_i hs
    split
    · exact hended _
    · split
      · exact hstay (by simp [hs])
      · trivial
  · rename_i hs
    exact hstay (by simp [hs])

/-- **A job that goes on is on time when it rests**, and so is any other that was before. -/
theorem isOnTime_resume (hpos : 0 < workshop.settings.flushInterval) {r : Nat}
    (h : ∀ job : Job, r ≠ run → w.jobs[r]? = some job → job.IsOnTime w.now) {job : Job}
    (hjob : (resume workshop w run).jobs[r]? = some job) : job.IsOnTime (resume workshop w run).now := by
  have hspares : Spares run w (resume workshop w run) := .resume w run
  by_cases hr : r = run
  · subst hr
    cases hjob' : w.jobs[r]? with
    | none =>
      rw [resume, hjob', hjob'] at hjob
      cases hjob
    | some job' =>
      have hrest : OnTime r (.rest, resume workshop w r) :=
        resume_induction hjob' (onTime_depart hjob') fun leg w' hw' => onTime_go hpos hw'
      exact hrest job hjob
  · rw [hspares.jobs_of_ne hr] at hjob
    rw [hspares.now]
    exact h job hr hjob

/-! ## A timer that goes off -/

/-- What becomes of a stage when its timer may go off up to a time. -/
def Stage.elapse (interval time : Nat) : Stage → Stage
  | .reading p reader batcher nextFlush =>
    if nextFlush ≤ time then .reading p reader batcher.tick.2 (nextTick nextFlush interval time)
    else .reading p reader batcher nextFlush
  | stage => stage

/-- A timer that has gone off up to a time goes off next after it. -/
theorem lt_nextTick {tick interval time : Nat} (hpos : 0 < interval) (htick : tick ≤ time) :
    time < nextTick tick interval time := by
  have hlt : time - tick < interval * ((time - tick) / interval + 1) := Nat.lt_mul_div_succ _ hpos
  rw [Nat.mul_comm] at hlt
  rw [nextTick]
  omega

/-- It does so an interval after the time at the latest. -/
theorem nextTick_le {tick interval time : Nat} (htick : tick ≤ time) :
    nextTick tick interval time ≤ time + interval := by
  have hle : (time - tick) / interval * interval ≤ time - tick := Nat.div_mul_le_self ..
  rw [nextTick, Nat.add_mul, Nat.one_mul]
  omega

/-- The stage of a job whose timer may go off is what becomes of the stage at which it was. -/
theorem exists_stage_elapseJob {time : Nat} {job : Job}
    (hjob : (elapseJob workshop w run time).jobs[run]? = some job) :
    ∃ before, w.jobs[run]? = some before ∧
      job = { before with stage := before.stage.elapse workshop.settings.flushInterval time } := by
  cases hbefore : w.jobs[run]? with
  | none => simp [elapseJob, hbefore] at hjob
  | some before =>
    refine ⟨before, rfl, ?_⟩
    cases hs : before.stage with
    | reading p reader batcher nextFlush =>
      by_cases hdue : nextFlush ≤ time
      · simpa [elapseJob, hbefore, hs, hdue, atStage, Stage.elapse, eq_comm] using hjob
      · have hsame : before = job := by simpa [elapseJob, hbefore, hs, hdue] using hjob
        rw [← hsame, Stage.elapse, if_neg hdue, ← hs]
    | _ =>
      have hsame : before = job := by simpa [elapseJob, hbefore, hs] using hjob
      rw [← hsame, Stage.elapse, ← hs]
      rintro _ _ _ _ ⟨⟩

theorem isOnTime_elapseJob (hpos : 0 < workshop.settings.flushInterval) {time : Nat} {job : Job}
    (hjob : (elapseJob workshop w run time).jobs[run]? = some job) : job.IsOnTime time := by
  obtain ⟨before, -, rfl⟩ := exists_stage_elapseJob hjob
  intro p reader batcher nextFlush hstage
  dsimp only at hstage
  cases hs : before.stage with
  | reading p' reader' batcher' nextFlush' =>
    rw [hs, Stage.elapse] at hstage
    split at hstage
    · rename_i hdue
      obtain ⟨-, -, -, rfl⟩ := Stage.reading.inj hstage
      exact lt_nextTick hpos hdue
    · obtain ⟨-, -, -, rfl⟩ := Stage.reading.inj hstage
      omega
  | _ =>
    rw [hs] at hstage
    cases hstage

/-! ## All timers -/

/-- Every timer goes off later than now. -/
def Timely (w : Supervision) : Prop :=
  ∀ (run : Nat) (job : Job), w.jobs[run]? = some job → job.IsOnTime w.now

namespace Timely

/-- What leaves jobs and time alone leaves the timers alone. -/
theorem of_eq (h : Timely w) (hjobs : w'.jobs = w.jobs) (hnow : w'.now = w.now) : Timely w' := by
  intro r job hjob
  rw [hnow]
  rw [hjobs] at hjob
  exact h r job hjob

theorem resume (hpos : 0 < workshop.settings.flushInterval) (h : Timely w) (run : Nat) :
    Timely (Supervision.resume workshop w run) := fun r _ hjob =>
  isOnTime_resume hpos (fun job' _ hjob' => h r job' hjob') hjob

theorem settle (hpos : 0 < workshop.settings.flushInterval) (h : Timely w) :
    Timely (Supervision.settle workshop w) :=
  List.foldlRecOn (motive := Timely) (b := { w with ready := [] }) w.ready (Supervision.resume workshop)
    (h.of_eq rfl rfl) fun _ hw' run _ => hw'.resume hpos run

/-- **When time has gone by, every timer that went off goes off later.** -/
theorem elapse (hpos : 0 < workshop.settings.flushInterval) (w : Supervision) (ms : Nat) :
    Timely (Supervision.elapse workshop w ms) := by
  have hjobs : ∀ n, ∀ run < n, ∀ job : Job,
      ((List.range n).foldl (fun w' run => elapseJob workshop w' run (w.now + ms)) w).jobs[run]? = some job →
        job.IsOnTime (w.now + ms) := by
    intro n
    induction n with
    | zero => simp
    | succ n ih =>
      intro run hrun job hjob
      rw [List.range_succ, List.foldl_append, List.foldl_cons, List.foldl_nil] at hjob
      by_cases hlast : run = n
      · subst hlast
        exact isOnTime_elapseJob hpos hjob
      · rw [(Spares.elapseJob _ n _).jobs_of_ne hlast] at hjob
        exact ih run (by omega) job hjob
  have hlength : ∀ runs : List Nat,
      (runs.foldl (fun w' run => elapseJob workshop w' run (w.now + ms)) w).jobs.length = w.jobs.length :=
    fun runs => List.foldlRecOn (motive := fun w' : Supervision => w'.jobs.length = w.jobs.length) runs _
      rfl fun w' hw' run _ => by
        have hspares : Spares run w' (elapseJob workshop w' run (w.now + ms)) := .elapseJob ..
        obtain ⟨f, hf⟩ := hspares.jobs
        rw [hf, List.length_modify, hw']
  intro run job hjob
  have hrun : run < w.jobs.length := by
    rw [← hlength (List.range w.jobs.length)]
    exact (List.getElem?_eq_some_iff.mp hjob).1
  exact hjobs w.jobs.length run hrun job hjob

theorem turn (hpos : 0 < workshop.settings.flushInterval) (h : Timely w) (t : Turn) :
    Timely (Supervision.turn workshop w t) := by
  rcases t.kinds with ht | rfl | ⟨ms, rfl⟩ | ⟨source, text, matchLines, environment, rfl⟩
  · obtain ⟨hjobs, -, -⟩ := quiet_turn workshop ht w
    exact h.of_eq hjobs (now_of_isQuiet workshop ht w)
  · exact h.settle hpos
  · exact elapse hpos _ ms
  · intro run job hjob
    have hnow : (w.start source text matchLines environment).now = w.now := now_wakeActive w
    rw [Supervision.turn, perform, hnow]
    rcases jobs_start_cases source text matchLines environment hjob with hjob | ⟨-, rfl⟩
    · exact h run job hjob
    · rintro p reader batcher nextFlush ⟨⟩

end Timely

/-- **After any history every timer goes off later.** -/
theorem timely_after (hpos : 0 < workshop.settings.flushInterval) (turns : List Turn) :
    Timely (after workshop turns) :=
  List.foldlRecOn (motive := Timely) turns (turn workshop) (by simp [Timely, initial])
    fun _ hw t _ => hw.turn hpos t

end Scratchpad.Run
