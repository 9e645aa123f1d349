import Mathlib.Logic.Function.Iterate
import Scratchpad.Run.Supervision

/-!
# The legs of a job

A job that goes on may go far before it has to wait again: it may mark, compile, write, start its program
and read all of its output in one turn. Its way is cut here into legs, each of which does one thing to the
world and then either goes over to the next leg or rests. What holds along the whole way is then shown for
one leg.

## Main definitions

* `Leg`: where a job is on its way.
* `Supervision.go`: one leg of a job's way.
* `Supervision.depart`: where a job goes on, once it has passed the gate that it waits at.
* `Supervision.Spares`: a job leaves other jobs alone.

## Main statements

* `Supervision.resume_eq_go`: a job that goes on goes leg by leg.
* `Supervision.resume_induction`: what departing and every leg keep, going on keeps.
* `Supervision.Spares.resume`: a job that goes on leaves other jobs alone.
-/

namespace Scratchpad.Run

open Log Sandbox

/-- Where a job is on its way. -/
inductive Leg where
  | begin (source : String)
  /-- Before the gate that a written file passes. -/
  | reach (part : Part) (entry : String)
  | write (part : Part) (entry : String)
  /-- Before the gate that a started program passes. -/
  | reachSpawn
  | spawn
  | read (process : Nat) (reader : LineReader) (batcher : Batcher Entry) (nextFlush : Nat)
  /-- Before the gate that a program's end passes. -/
  | awaitExit (process : Nat) (reader : LineReader) (batcher : Batcher Entry)
  | close (process : Nat) (reader : LineReader) (batcher : Batcher Entry)
  /-- The job waits or has ended. -/
  | rest

/-- The name of a file that a job writes. -/
def Part.path (workshop : Workshop) : Part → String
  | .preamble => preambleFile
  | .entry => workshop.settings.entryFile

/-- The text of a file that a job writes. -/
def Part.contents (entry : String) : Part → String
  | .preamble => Scratchpad.preamble
  | .entry => entry

/-- What comes after a file has been written. -/
def Part.next (entry : String) : Part → Leg
  | .preamble => .reach .entry entry
  | .entry => .reachSpawn

namespace Supervision

variable (workshop : Workshop) (run : Nat) (job : Job)

/-- One leg of a job's way. -/
def go (w : Supervision) : Leg → Leg × Supervision
  | .begin source =>
    match composed workshop job.matchLines source with
    | .error failure => (.rest, w.fail run job failure.message)
    | .ok entry => (.reach .preamble entry, w)
  | .reach part entry =>
    if w.slot.isCancelled run then (.rest, w.atStage run .ended)
    else if w.sandbox.writeGate.isHeld then
      (.rest, { w with sandbox := w.sandbox.await .write run }.atStage run (.writing part entry))
    else (.write part entry, w)
  | .write part entry =>
    match w.sandbox.write (part.path workshop) (part.contents entry) with
    | (.error failure, sandbox) => (.rest, { w with sandbox := sandbox }.fail run job failure.message)
    | (.ok (), sandbox) => (part.next entry, { w with sandbox := sandbox })
  | .reachSpawn =>
    if w.sandbox.spawnGate.isHeld then
      (.rest, { w with sandbox := w.sandbox.await .spawn run }.atStage run .spawning)
    else (.spawn, w)
  | .spawn =>
    let settings := workshop.settings
    match w.sandbox.spawn run ⟨settings.program, [settings.entryFile], job.environment⟩ with
    | (.error failure, sandbox) => (.rest, { w with sandbox := sandbox }.fail run job failure.message)
    | (.ok process, sandbox) =>
      let w := { w with sandbox := sandbox }
      if w.slot.isCancelled run then (.rest, w.abandon run process)
      else
        (.read process (.start job.matchLines) (.ofMark settings.mark) w.now,
          { w with slot := w.slot.setRunning job.generation })
  | .read process reader batcher nextFlush =>
    if w.slot.isCancelled run then (.rest, w.abandon run process)
    else
      let (w, batcher, nextFlush) := flushDue workshop w run job batcher nextFlush
      let unread := (w.sandbox.processes[process]?.map (·.unread)).getD []
      let w := { w with sandbox := w.sandbox.markRead process }
      let (w, reader, batcher) := w.readChunks run job reader batcher unread
      if (w.sandbox.controlled? process).isSome then
        (.rest, w.atStage run (.reading process reader batcher nextFlush))
      else (.awaitExit process reader batcher, w)
  | .awaitExit process reader batcher =>
    if w.sandbox.waitGate.isHeld then
      (.rest,
        { w with sandbox := w.sandbox.await .wait run }.atStage run (.awaiting process reader batcher))
    else (.close process reader batcher, w)
  | .close process reader batcher => (.rest, w.close run job process reader batcher)
  | .rest => (.rest, w)

/-- Where a job goes on. A job that waits at a gate leaves it if it has been told to end, and stays there
if the gate has not let it pass. -/
def depart (w : Supervision) : Leg × Supervision :=
  match job.stage with
  | .fresh source => (.begin source, w)
  | .writing part entry =>
    if w.slot.isCancelled run then
      (.rest, { w with sandbox := w.sandbox.leave .write run }.atStage run .ended)
    else if (w.sandbox.gate .write).callers.contains run then (.rest, w)
    else (.write part entry, w)
  | .spawning => if w.sandbox.spawnGate.callers.contains run then (.rest, w) else (.spawn, w)
  | .reading process reader batcher nextFlush => (.read process reader batcher nextFlush, w)
  | .awaiting process reader batcher =>
    if w.slot.isCancelled run then
      (.rest, { w with sandbox := w.sandbox.leave .wait run }.abandon run process)
    else if w.sandbox.waitGate.callers.contains run then (.rest, w)
    else (.close process reader batcher, w)
  | .ended => (.rest, w)

/-- Legs one after another. -/
def goOn (n : Nat) (start : Leg × Supervision) : Leg × Supervision :=
  (fun position => go workshop run job position.2 position.1)^[n] start

variable {workshop run job} {w : Supervision}

@[simp] theorem goOn_rest (n : Nat) : goOn workshop run job n (.rest, w) = (.rest, w) :=
  Function.iterate_fixed rfl n

@[simp] theorem goOn_succ (n : Nat) (leg : Leg) :
    goOn workshop run job (n + 1) (leg, w) = goOn workshop run job n (go workshop run job w leg) :=
  Function.iterate_succ_apply _ n _

/-! ## The ways from each leg

Every way ends after ten legs at the latest. The number of legs left is a parameter, so that a way is part
of every way that leads to it. -/

theorem goOn_close (n process : Nat) (reader : LineReader) (batcher : Batcher Entry) :
    goOn workshop run job (n + 1) (.close process reader batcher, w) =
      (.rest, w.close run job process reader batcher) := by
  rw [goOn_succ, go, goOn_rest]

theorem goOn_awaitExit (n process : Nat) (reader : LineReader) (batcher : Batcher Entry) :
    goOn workshop run job (n + 2) (.awaitExit process reader batcher, w) =
      (.rest, w.awaitExit run job process reader batcher) := by
  rw [goOn_succ, go, awaitExit]
  split
  · rw [goOn_rest]
  · rw [goOn_close]

theorem goOn_read (n process : Nat) (reader : LineReader) (batcher : Batcher Entry)
    (nextFlush : Nat) :
    goOn workshop run job (n + 3) (.read process reader batcher nextFlush, w) =
      (.rest, readOutput workshop w run job process reader batcher nextFlush) := by
  rw [goOn_succ, go, readOutput]
  split
  · rw [goOn_rest]
  · dsimp only
    split
    · rw [goOn_rest]
    · rw [goOn_awaitExit]

theorem goOn_spawn (n : Nat) :
    goOn workshop run job (n + 4) (.spawn, w) = (.rest, spawn workshop w run job) := by
  rw [goOn_succ, go, spawn]
  dsimp only
  rcases w.sandbox.spawn run _ with ⟨_ | process, sandbox⟩
  · rw [goOn_rest]
  · dsimp only
    split
    · rw [goOn_rest]
    · rw [goOn_read]

theorem goOn_reachSpawn (n : Nat) :
    goOn workshop run job (n + 5) (.reachSpawn, w) = (.rest, reachSpawn workshop w run job) := by
  rw [goOn_succ, go, reachSpawn]
  split
  · rw [goOn_rest]
  · rw [goOn_spawn]

theorem goOn_write_entry (n : Nat) (entry : String) :
    goOn workshop run job (n + 6) (.write .entry entry, w) =
      (.rest, writeEntry workshop w run job entry) := by
  rw [goOn_succ, go, writeEntry]
  simp only [Part.path, Part.contents, Part.next]
  rcases w.sandbox.write _ entry with ⟨_ | _, sandbox⟩
  · rw [goOn_rest]
  · rw [goOn_reachSpawn]

theorem goOn_reach_entry (n : Nat) (entry : String) :
    goOn workshop run job (n + 7) (.reach .entry entry, w) =
      (.rest, reachEntry workshop w run job entry) := by
  rw [goOn_succ, go, reachEntry]
  split
  · rw [goOn_rest]
  · split
    · rw [goOn_rest]
    · rw [goOn_write_entry]

theorem goOn_write_preamble (n : Nat) (entry : String) :
    goOn workshop run job (n + 8) (.write .preamble entry, w) =
      (.rest, writePreamble workshop w run job entry) := by
  rw [goOn_succ, go, writePreamble]
  simp only [Part.path, Part.contents, Part.next]
  rcases w.sandbox.write _ preamble with ⟨_ | _, sandbox⟩
  · rw [goOn_rest]
  · rw [goOn_reach_entry]

theorem goOn_reach_preamble (n : Nat) (entry : String) :
    goOn workshop run job (n + 9) (.reach .preamble entry, w) =
      (.rest, reachPreamble workshop w run job entry) := by
  rw [goOn_succ, go, reachPreamble]
  split
  · rw [goOn_rest]
  · split
    · rw [goOn_rest]
    · rw [goOn_write_preamble]

theorem goOn_begin (n : Nat) (source : String) :
    goOn workshop run job (n + 10) (.begin source, w) = (.rest, begin workshop w run job source) := by
  rw [goOn_succ, go, begin]
  cases composed workshop job.matchLines source with
  | error failure => rw [goOn_rest]
  | ok entry => rw [goOn_reach_preamble]

/-- **A job that goes on goes leg by leg.** -/
theorem resume_eq_go (hjob : w.jobs[run]? = some job) :
    goOn workshop run job 10 (depart run job w) = (.rest, resume workshop w run) := by
  cases hs : job.stage with
  | fresh source =>
    simp only [resume, depart, hjob, hs]
    exact goOn_begin 0 source
  | writing part entry =>
    cases part <;> simp only [resume, depart, hjob, hs, passGate]
    · split
      · rw [goOn_rest]
      · split
        · rw [goOn_rest]
        · exact goOn_write_preamble 2 entry
    · split
      · rw [goOn_rest]
      · split
        · rw [goOn_rest]
        · exact goOn_write_entry 4 entry
  | spawning =>
    simp only [resume, depart, hjob, hs]
    split
    · rw [goOn_rest]
    · exact goOn_spawn 6
  | reading process reader batcher nextFlush =>
    simp only [resume, depart, hjob, hs]
    exact goOn_read 7 process reader batcher nextFlush
  | awaiting process reader batcher =>
    simp only [resume, depart, hjob, hs]
    split
    · rw [goOn_rest]
    · split
      · rw [goOn_rest]
      · exact goOn_close 9 process reader batcher
  | ended =>
    simp only [resume, depart, hjob, hs]
    rw [goOn_rest]

/-- **What departing and every leg keep, going on keeps.** -/
theorem resume_induction {P : Leg × Supervision → Prop} (hjob : w.jobs[run]? = some job)
    (hdepart : P (depart run job w)) (hgo : ∀ leg w, P (leg, w) → P (go workshop run job w leg)) :
    P (.rest, resume workshop w run) := by
  rw [← resume_eq_go hjob]
  exact Function.Iterate.rec P hdepart (fun position hp => hgo position.1 position.2 hp) 10

/-- **What departing and every leg keep of two worlds, going on keeps.** The job need not be the same in
both. -/
theorem resume_induction₂ {w' : Supervision} {run' : Nat} {job' : Job}
    {R : Leg × Supervision → Leg × Supervision → Prop} (hjob : w.jobs[run]? = some job)
    (hjob' : w'.jobs[run']? = some job') (hdepart : R (depart run job w) (depart run' job' w'))
    (hgo : ∀ leg w leg' w', R (leg, w) (leg', w') →
      R (go workshop run job w leg) (go workshop run' job' w' leg')) :
    R (.rest, resume workshop w run) (.rest, resume workshop w' run') := by
  have hn : ∀ n start start', R start start' →
      R (goOn workshop run job n start) (goOn workshop run' job' n start') := by
    intro n
    induction n with
    | zero => exact fun start start' h => h
    | succ n ih =>
      intro start start' h
      obtain ⟨leg, w⟩ := start
      obtain ⟨leg', w'⟩ := start'
      rw [goOn_succ, goOn_succ]
      exact ih _ _ (hgo leg w leg' w' h)
  rw [← resume_eq_go hjob, ← resume_eq_go hjob']
  exact hn 10 _ _ hdepart

/-! ## What a job leaves alone -/

/-- A job changes no other job, nor what has been woken, nor the time. -/
structure Spares (run : Nat) (w w' : Supervision) : Prop where
  ready : w'.ready = w.ready
  now : w'.now = w.now
  jobs : ∃ f : Stage → Stage, w'.jobs = w.jobs.modify run fun j => { j with stage := f j.stage }

/-- A job that is put at a stage is there. -/
theorem stage_of_atStage {stage : Stage} {job' : Job} (hjob : (w.atStage run stage).jobs[run]? = some job') :
    job'.stage = stage := by
  simp only [atStage, List.getElem?_modify_eq] at hjob
  obtain ⟨_, -, rfl⟩ := Option.map_eq_some_iff.mp hjob
  rfl

@[simp] theorem jobs_deliverBatch (w : Supervision) (batch : Option (List Entry)) :
    (w.deliverBatch run job batch).jobs = w.jobs := by
  cases batch <;> rfl

namespace Spares

theorem of_eq {w' : Supervision} (hready : w'.ready = w.ready) (hnow : w'.now = w.now)
    (hjobs : w'.jobs = w.jobs) : Spares run w w' :=
  ⟨hready, hnow, id, hjobs.trans (List.modify_id run w.jobs).symm⟩

theorem refl (w : Supervision) : Spares run w w := of_eq rfl rfl rfl

theorem atStage (w : Supervision) (stage : Stage) : Spares run w (w.atStage run stage) :=
  ⟨rfl, rfl, fun _ => stage, rfl⟩

theorem trans {w' w'' : Supervision} (h : Spares run w w') (h' : Spares run w' w'') :
    Spares run w w'' := by
  obtain ⟨f, hf⟩ := h.jobs
  obtain ⟨g, hg⟩ := h'.jobs
  refine ⟨h'.ready.trans h.ready, h'.now.trans h.now, g ∘ f, ?_⟩
  rw [hg, hf, List.modify_modify_eq]
  rfl

theorem jobs_of_ne {w' : Supervision} (h : Spares run w w') {r : Nat} (hr : r ≠ run) :
    w'.jobs[r]? = w.jobs[r]? := by
  obtain ⟨f, hf⟩ := h.jobs
  simp [hf, Ne.symm hr]

theorem fail (w : Supervision) (message : String) : Spares run w (w.fail run job message) :=
  ⟨rfl, rfl, fun _ => .ended, rfl⟩

theorem abandon (w : Supervision) (process : Nat) : Spares run w (w.abandon run process) :=
  ⟨rfl, rfl, fun _ => .ended, rfl⟩

theorem deliverBatch (w : Supervision) (batch : Option (List Entry)) :
    Spares run w (w.deliverBatch run job batch) := by
  cases batch <;> exact of_eq rfl rfl rfl

theorem readChunks (w : Supervision) (reader : LineReader) (batcher : Batcher Entry)
    (chunks : List String) : Spares run w (w.readChunks run job reader batcher chunks).1 := by
  induction chunks generalizing w reader batcher with
  | nil => exact refl w
  | cons chunk chunks ih => exact (deliverBatch w _).trans (ih _ _ _)

theorem flushDue (w : Supervision) (batcher : Batcher Entry) (nextFlush : Nat) :
    Spares run w (Supervision.flushDue workshop w run job batcher nextFlush).1 := by
  rw [Supervision.flushDue]
  split
  · exact deliverBatch w _
  · exact refl w

theorem close (w : Supervision) (process : Nat) (reader : LineReader) (batcher : Batcher Entry) :
    Spares run w (w.close run job process reader batcher) := by
  rw [Supervision.close]
  dsimp only
  have hdelivered : Spares run w
      ((w.deliverBatch run job (batcher.push reader.flush.1.toList).1).deliverBatch run job
        (batcher.push reader.flush.1.toList).2.drain.1) :=
    (deliverBatch w _).trans (deliverBatch _ _)
  split <;> exact hdelivered.trans ⟨rfl, rfl, fun _ => .ended, rfl⟩

/-- The job of a run goes on, and everything else is spared. -/
theorem go (w : Supervision) (leg : Leg) : Spares run w (Supervision.go workshop run job w leg).2 := by
  cases leg with
  | begin source =>
    rw [Supervision.go]
    split
    · exact fail w _
    · exact refl w
  | reach part entry =>
    rw [Supervision.go]
    split
    · exact atStage w .ended
    · split
      · exact ⟨rfl, rfl, fun _ => .writing part entry, rfl⟩
      · exact refl w
  | write part entry =>
    rw [Supervision.go]
    split
    · exact ⟨rfl, rfl, fun _ => .ended, rfl⟩
    · exact of_eq rfl rfl rfl
  | reachSpawn =>
    rw [Supervision.go]
    split
    · exact ⟨rfl, rfl, fun _ => .spawning, rfl⟩
    · exact refl w
  | spawn =>
    rw [Supervision.go]
    dsimp only
    split
    · exact ⟨rfl, rfl, fun _ => .ended, rfl⟩
    · split
      · exact ⟨rfl, rfl, fun _ => .ended, rfl⟩
      · exact of_eq rfl rfl rfl
  | read process reader batcher nextFlush =>
    rw [Supervision.go]
    split
    · exact abandon w process
    · have hdue : Spares run w (Supervision.flushDue workshop w run job batcher nextFlush).1 :=
        flushDue w batcher nextFlush
      generalize Supervision.flushDue workshop w run job batcher nextFlush = due at hdue ⊢
      have hmark : Spares run w { due.1 with sandbox := due.1.sandbox.markRead process } :=
        hdue.trans (of_eq rfl rfl rfl)
      dsimp only
      split
      · exact (hmark.trans (readChunks _ _ _ _)).trans (atStage _ _)
      · exact hmark.trans (readChunks _ _ _ _)
  | awaitExit process reader batcher =>
    rw [Supervision.go]
    split
    · exact ⟨rfl, rfl, fun _ => .awaiting process reader batcher, rfl⟩
    · exact refl w
  | close process reader batcher => exact close w process reader batcher
  | rest => exact refl w

theorem depart (w : Supervision) : Spares run w (Supervision.depart run job w).2 := by
  rw [Supervision.depart]
  split
  · exact refl w
  · split
    · exact ⟨rfl, rfl, fun _ => .ended, rfl⟩
    · split <;> exact refl w
  · split <;> exact refl w
  · exact refl w
  · split
    · exact ⟨rfl, rfl, fun _ => .ended, rfl⟩
    · split <;> exact refl w
  · exact refl w

/-- **A job that goes on changes no other job**, nor what has been woken, nor the time. -/
theorem resume (w : Supervision) (run : Nat) : Spares run w (Supervision.resume workshop w run) := by
  cases hjob : w.jobs[run]? with
  | none =>
    rw [Supervision.resume, hjob]
    exact refl w
  | some job =>
    have h : Spares run w (Leg.rest, Supervision.resume workshop w run).2 :=
      resume_induction (P := fun position => Spares run w position.2) hjob (depart w)
        fun leg w' hw => hw.trans (go w' leg)
    exact h

end Spares

end Supervision

end Scratchpad.Run
