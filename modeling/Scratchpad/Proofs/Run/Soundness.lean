import Scratchpad.Proofs.Run.Underway

/-!
# All is well with every run

All is well when the view of every run fits its stage: a run that has not been woken waits for something
that has not happened yet, a run that reads has lost nothing, and a run that is over has delivered
everything or has been told to end. Jobs that go on keep it so, and time keeps it so.

## Main definitions

* `Sound`: all is well with every run.

## Main statements

* `Sound.resume`, `Sound.settle`: jobs that go on keep all well.
* `elapse_induction`: what every timer and the clock keep, time keeps.
* `Sound.elapse`: time keeps all well.
-/

namespace Scratchpad.Run

open Log Sandbox Supervision

/-- All is well with every run. Some runs have been woken. -/
def Sound (printed : Nat → List String) (woken : List Nat) (w : Supervision) : Prop :=
  ∃ log, World printed log w ∧ ∀ r job, w.jobs[r]? = some job →
    Fits printed job.matchLines r (w.view log r) (r ∈ woken) job.stage

variable {workshop : Workshop} {printed : Nat → List String} {woken : List Nat} {w : Supervision}

/-! ## Jobs that go on -/

/-- A run sees a view that fits its stage. -/
theorem Sound.exists_sees {run : Nat} (h : Sound printed woken w) {job : Job}
    (hjob : w.jobs[run]? = some job) (others : List Nat)
    (hothers : ∀ r, r ≠ run → r ∈ woken → r ∈ others) :
    ∃ v, Sees printed others run job job.stage w v ∧
      Fits printed job.matchLines run v (run ∈ woken) job.stage := by
  obtain ⟨log, hworld, hfits⟩ := h
  refine ⟨_, ⟨log, ⟨hworld, fun r job' hr hjob' => ?_⟩, hjob, rfl⟩, hfits run job hjob⟩
  exact (hfits r job' hjob').wake (hothers r hr)

/-- All is well if it is well with one run and elsewhere. -/
theorem Sees.sound {run : Nat} {job : Job} {stage : Stage} {v : View}
    (h : Sees printed woken run job stage w v)
    (hfits : Fits printed job.matchLines run v (run ∈ woken) stage) : Sound printed woken w := by
  obtain ⟨log, helse, hjob, rfl⟩ := h
  refine ⟨log, helse.world, ?_⟩
  intro r job' hjob'
  by_cases hr : r = run
  · subst hr
    obtain rfl : { job with stage := stage } = job' := Option.some.inj (hjob.symm.trans hjob')
    exact hfits
  · exact helse.fits r job' hr hjob'

/-- **A job that goes on keeps all well.** It need not be woken again. -/
theorem Sound.resume {run : Nat} (h : Sound printed (run :: woken) w) :
    Sound printed woken (resume workshop w run) := by
  cases hjob : w.jobs[run]? with
  | none =>
    obtain ⟨log, hworld, hfits⟩ := h
    rw [Supervision.resume, hjob]
    refine ⟨log, hworld, ?_⟩
    intro r job hr
    apply (hfits r job hr).wake
    intro hmem
    rcases List.mem_cons.mp hmem with rfl | hmem
    · rw [hjob] at hr
      cases hr
    · exact hmem
  | some job =>
    obtain ⟨v, hsees, hfits⟩ := h.exists_sees hjob woken
      fun r hr hmem => (List.mem_cons.mp hmem).resolve_left hr
    have hrest : Underway printed woken run job (.rest, Supervision.resume workshop w run) :=
      resume_induction hjob (underway_depart hsees hfits) fun leg w' hw => hw.go workshop
    obtain ⟨v', stage, hsees', hfits'⟩ := hrest
    exact hsees'.sound hfits'

/-- Neither files nor failures nor the time are part of what has to be well. -/
theorem Sound.congr (h : Sound printed woken w) {w' : Supervision} (hslot : w'.slot = w.slot)
    (hjobs : w'.jobs = w.jobs) (hp : w'.sandbox.processes = w.sandbox.processes)
    (hcallers : ∀ point, (w'.sandbox.gate point).callers = (w.sandbox.gate point).callers)
    (hheld : ∀ point, (w'.sandbox.gate point).isHeld = false → (w.sandbox.gate point).isHeld = false) :
    Sound printed woken w' := by
  obtain ⟨log, hworld, hfits⟩ := h
  refine ⟨log, hworld.congr hslot hjobs hp hcallers hheld, ?_⟩
  intro r job hjob
  rw [Supervision.view_congr hslot hp hcallers]
  exact hfits r job (hjobs ▸ hjob)

/-- **Jobs that go on one after another keep all well.** Others that have been woken may follow. -/
theorem Sound.foldl_resume {before after : List Nat} (h : Sound printed (before ++ after) w) :
    Sound printed after (before.foldl (Supervision.resume workshop) w) := by
  induction before generalizing w with
  | nil => exact h
  | cons run before ih => exact ih h.resume

/-- Jobs that have been woken are about to go on. -/
theorem Sound.setOff (h : Sound printed w.ready w) : Sound printed w.ready { w with ready := [] } :=
  h.congr rfl rfl rfl (fun _ => rfl) fun _ => id

theorem Sound.settle (h : Sound printed w.ready w) : Sound printed [] (settle workshop w) := by
  have hready : Sound printed (w.ready ++ []) { w with ready := [] } := by
    rw [List.append_nil]
    exact h.setOff
  exact hready.foldl_resume

/-- Jobs that go on wake no job. -/
theorem ready_settle (w : Supervision) : (settle workshop w).ready = [] :=
  List.foldlRecOn (motive := fun w => w.ready = []) w.ready (Supervision.resume workshop) rfl
    fun w hw run _ => (Spares.resume w run).ready.trans hw

/-! ## Time -/

/-- A timer goes off only for a job that reads. -/
theorem elapseJob_cases (workshop : Workshop) (w : Supervision) (run time : Nat) :
    elapseJob workshop w run time = w ∨
      ∃ job p reader batcher nextFlush next, w.jobs[run]? = some job ∧
        job.stage = .reading p reader batcher nextFlush ∧
        elapseJob workshop w run time =
          (w.deliverBatch run job batcher.tick.1).atStage run
            (.reading p reader batcher.tick.2 next) := by
  cases hjob : w.jobs[run]? with
  | none => exact .inl (by simp [elapseJob, hjob])
  | some job =>
    cases hs : job.stage with
    | reading p reader batcher nextFlush =>
      by_cases hdue : nextFlush ≤ time
      · refine .inr ⟨job, p, reader, batcher, nextFlush,
          nextTick nextFlush workshop.settings.flushInterval time, rfl, hs, ?_⟩
        simp [elapseJob, hjob, hs, hdue]
      · exact .inl (by simp [elapseJob, hjob, hs, hdue])
    | _ => exact .inl (by simp [elapseJob, hjob, hs])

/-- What every timer and the clock keep, time keeps. -/
theorem elapse_induction {P : Supervision → Prop} {ms : Nat} (h : P w)
    (htimer : ∀ w' run, P w' → P (elapseJob workshop w' run (w.now + ms)))
    (hclock : ∀ w' now, P w' → P { w' with now := now }) : P (elapse workshop w ms) :=
  hclock _ _ (List.foldlRecOn (motive := P) _ _ h fun w' hw' run _ => htimer w' run hw')

/-- A run whose timer goes off delivers what it has collected. -/
theorem Sound.elapseJob (h : Sound printed woken w) (run time : Nat) :
    Sound printed woken (elapseJob workshop w run time) := by
  rcases elapseJob_cases workshop w run time with
    heq | ⟨job, p, reader, batcher, nextFlush, next, hjob, hs, heq⟩
  · rw [heq]
    exact h
  · rw [heq]
    obtain ⟨v, hsees, hfits⟩ := h.exists_sees hjob woken fun r _ hmem => hmem
    rw [hs] at hfits
    obtain ⟨q, hq, hflow, hwait⟩ := hfits
    cases hc : v.isCancelled with
    | true =>
      have hsees' := hsees.deliverBatch_of_phase (hsees.phase_eq_none hc) batcher.tick.1
      exact (hsees'.atStage _).sound ⟨q, hq, fun hc' => by simp [hc] at hc', hwait⟩
    | false =>
      obtain ⟨hphase, chunks, hprinted, hfed⟩ := hflow hc
      have hsome : v.phase.isSome := by rw [hphase]; rfl
      obtain ⟨told, hsees', htold⟩ := hsees.deliverBatch hsome batcher.tick.1
      refine (hsees'.atStage _).sound ⟨q, hq.of_owns_eq rfl, fun _ => ⟨hphase, chunks, hprinted, ?_⟩,
        hwait⟩
      rw [hfed, htold, List.append_assoc, Batcher.tick_flows]

/-- **Time keeps all well.** -/
theorem Sound.elapse (h : Sound printed woken w) (ms : Nat) :
    Sound printed woken (elapse workshop w ms) :=
  elapse_induction h (fun _ run hw' => hw'.elapseJob run _)
    fun _ _ hw' => hw'.congr rfl rfl rfl (fun _ => rfl) fun _ => id

/-- The timer of a job is nothing to other jobs. -/
theorem Supervision.Spares.elapseJob (w : Supervision) (run time : Nat) :
    Spares run w (elapseJob workshop w run time) := by
  rcases elapseJob_cases workshop w run time with heq | ⟨job, p, reader, batcher, _, _, _, _, heq⟩
  · rw [heq]
    exact .refl w
  · rw [heq]
    exact (Spares.deliverBatch w batcher.tick.1).trans (.atStage _ _)

/-- Time wakes no job. -/
theorem ready_elapse (w : Supervision) (ms : Nat) : (elapse workshop w ms).ready = w.ready :=
  elapse_induction (P := fun w' => w'.ready = w.ready) rfl
    (fun w' run hw' => (Spares.elapseJob w' run _).ready.trans hw') fun _ _ hw' => hw'

end Scratchpad.Run
