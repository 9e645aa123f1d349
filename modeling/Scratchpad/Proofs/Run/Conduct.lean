import Mathlib.Logic.Function.Basic
import Scratchpad.Proofs.Log.Batching
import Scratchpad.Proofs.Run.View

/-!
# How a run conducts itself

Whatever a run does, it changes its own view of the world in a way that the view alone determines, and all
stays well with the others.

## Main definitions

* `View.deliver`, `View.finish`, `View.atGate`, `View.withProcess`: views that change.
* `Sees`: what a run sees while all is well elsewhere.

## Main statements

* `Sees.deliver`, `Sees.setRunning`, `Sees.finish`: what a run sees of what it reports.
* `Sees.write`, `Sees.await`, `Sees.leave`, `Sees.spawn_ok`, `Sees.modifyProcess`: what a run sees of what
  it does in the sandbox.
* `View.over_of_attended`, `View.over_of_cancelled`: when a run is over.
-/

namespace Scratchpad.Run

open Log Sandbox

theorem owned_eq_some {s : Script} {run p : Nat} {q : Process} :
    owned s run p = some q ↔ s.processes[p]? = some q ∧ q.owner = run := by
  rw [owned, Option.filter_eq_some_iff, beq_iff_eq]

/-- A run has a phase if and only if it has the slot. -/
theorem Supervision.isSome_phase_view (w : Supervision) (log : List (Event Nat Entry)) (run : Nat) :
    (w.view log run).phase.isSome = true ↔ w.slot.active = some run := by
  rw [Supervision.view]
  split <;> simp [*]

/-! ## Views that change -/

namespace View

/-- The view of a run that has delivered entries. -/
def deliver (run : Nat) (entries : List Entry) (v : View) : View :=
  if entries ≠ [] ∧ v.phase.isSome then { v with told := v.told ++ [.output run entries] } else v

/-- The view of a run whose program has been reported to have been started. -/
def setRunning (v : View) : View := { v with phase := v.phase.map fun _ => .running }

/-- The view of a run that has reported its end. -/
def finish (run : Nat) (outcome : Outcome) (v : View) : View :=
  { v with
    phase := none
    told := v.told ++ if v.phase.isSome then [.finished run outcome] else [] }

/-- The view of a run that has arrived at a gate or has left it. -/
def atGate (point : Point) (isWaiting : Bool) (v : View) : View :=
  { v with waits := Function.update v.waits point isWaiting }

/-- The view of a run whose process has become another. -/
def withProcess (p : Nat) (q : Process) (v : View) : View :=
  { v with owns := Function.update v.owns p (some q) }

variable {v : View} {printed : Nat → List String} {matchLines : Bool} {run : Nat}

@[simp] theorem waits_atGate (v : View) (point : Point) (isWaiting : Bool) :
    (v.atGate point isWaiting).waits point = isWaiting := Function.update_self ..

@[simp] theorem owns_withProcess (v : View) (p : Nat) (q : Process) :
    (v.withProcess p q).owns p = some q := Function.update_self ..

theorem owns_withProcess_of_ne (v : View) {p p' : Nat} (q : Process) (hp : p' ≠ p) :
    (v.withProcess p q).owns p' = v.owns p' := Function.update_of_ne hp ..

theorem withProcess_withProcess (v : View) (p : Nat) (q q' : Process) :
    (v.withProcess p q).withProcess p q' = v.withProcess p q' := by
  simp [withProcess]

/-- Entries that are delivered by a run that has the slot are delivered. -/
theorem delivered_told_deliver (run : Nat) (hphase : v.phase.isSome) (entries : List Entry) :
    v.deliver run entries = { v with told := (v.deliver run entries).told } ∧
      delivered (v.deliver run entries).told = delivered v.told ++ entries := by
  rw [deliver]
  split
  · exact ⟨rfl, by simp [delivered, Event.items]⟩
  · rename_i h
    have hnil : entries = [] := by simpa [hphase] using h
    exact ⟨rfl, by simp [hnil]⟩

/-- An end delivers nothing. -/
theorem delivered_told_finish (outcome : Outcome) :
    delivered (v.finish run outcome).told = delivered v.told := by
  rw [finish]
  split <;> simp [delivered, Event.items]

theorem mem_told_finish (hphase : v.phase.isSome) (outcome : Outcome) :
    .finished run outcome ∈ (v.finish run outcome).told := by
  simp [finish, hphase]

/-- A run that ends without a process is over. -/
theorem over_of_unowned (hphase : v.phase = none) (howns : ∀ p, v.owns p = none) :
    v.Over printed matchLines run where
  phase := hphase
  dismissed p q hq := by simp [howns p] at hq
  ended _ p q hq := by simp [howns p] at hq
  exited _ p q code hq := by simp [howns p] at hq
  lost _ p q hq := by simp [howns p] at hq

/-- A run that has reported how its only process ended is over when the process is dismissed. -/
theorem over_of_attended {p : Nat} {q : Process} (hphase : v.phase = none) (hq : v.owns p = some q)
    (honly : ∀ p', p' ≠ p → v.owns p' = none) (hdismissed : q.isAttended = false)
    (hcontrol : q.control ≠ .alive)
    (hexited : ∀ code, q.control = .exited code →
      delivered v.told = LineReader.entriesOf matchLines (String.join (printed p)) ∧
        .finished run (.completed code) ∈ v.told)
    (hlost : q.control = .lost →
      delivered v.told = LineReader.entriesOf matchLines (String.join (printed p)) ++
          [Entry.ofFailure lossMessage] ∧
        .finished run (.failed lossMessage) ∈ v.told) :
    v.Over printed matchLines run := by
  have honly' : ∀ p' q', v.owns p' = some q' → p' = p ∧ q' = q := fun p' q' hq' => by
    by_cases hp : p' = p
    · rw [hp, hq] at hq'
      exact ⟨hp, (Option.some.inj hq').symm⟩
    · rw [honly p' hp] at hq'
      cases hq'
  constructor
  case phase => exact hphase
  case dismissed =>
    intro p' q' hq'
    obtain ⟨rfl, rfl⟩ := honly' p' q' hq'
    exact ⟨hdismissed, fun halive => absurd halive hcontrol⟩
  case ended =>
    intro _ p' q' hq'
    obtain ⟨rfl, rfl⟩ := honly' p' q' hq'
    exact hcontrol
  case exited =>
    intro _ p' q' code hq' hcode
    obtain ⟨rfl, rfl⟩ := honly' p' q' hq'
    exact hexited code hcode
  case lost =>
    intro _ p' q' hq' hgone
    obtain ⟨rfl, rfl⟩ := honly' p' q' hq'
    exact hlost hgone

/-- A run that has been told to end is over when its process is dismissed. -/
theorem over_of_cancelled (hphase : v.phase = none) (hc : v.isCancelled = true)
    (hdismissed : ∀ p q, v.owns p = some q →
      q.isAttended = false ∧ (q.control = .alive → q.isKilled = true)) :
    v.Over printed matchLines run where
  phase := hphase
  dismissed := hdismissed
  ended hc' := by simp [hc] at hc'
  exited hc' := by simp [hc] at hc'
  lost hc' := by simp [hc] at hc'

end View

/-! ## What a run sees -/

/-- The run of a job at a stage sees a view, and all is well with every other run. -/
def Sees (printed : Nat → List String) (woken : List Nat) (run : Nat) (job : Job) (stage : Stage)
    (w : Supervision) (v : View) : Prop :=
  ∃ log, Elsewhere printed woken run log w ∧ w.jobs[run]? = some { job with stage := stage } ∧
    w.view log run = v

namespace Sees

variable {printed : Nat → List String} {woken : List Nat} {run : Nat} {job : Job}
  {stage : Stage} {w : Supervision} {v : View}

/-- A run that has been told to end does not have the slot. -/
theorem phase_eq_none (h : Sees printed woken run job stage w v) (hc : v.isCancelled = true) :
    v.phase = none := by
  obtain ⟨log, helse, -, rfl⟩ := h
  exact helse.world.phase_eq_none hc

theorem isCancelled_eq (h : Sees printed woken run job stage w v) :
    w.slot.isCancelled run = v.isCancelled := by
  obtain ⟨log, -, -, rfl⟩ := h
  rfl

theorem processes_eq (h : Sees printed woken run job stage w v) {p : Nat} {q : Process}
    (hq : v.owns p = some q) : w.sandbox.processes[p]? = some q ∧ q.owner = run := by
  obtain ⟨log, -, -, rfl⟩ := h
  exact owned_eq_some.mp hq

/-- Entries that a run delivers are told if the run has the slot. -/
theorem deliver (h : Sees printed woken run job stage w v) (entries : List Entry) :
    Sees printed woken run job stage { w with slot := w.slot.deliver job.generation run entries }
      (v.deliver run entries) := by
  obtain ⟨log, helse, hjob, rfl⟩ := h
  obtain ⟨handle, hhandle, hgen⟩ := helse.world.exists_handle hjob
  have hmove : w.slot.deliver job.generation run entries = w.slot.move (.deliver run entries) := by
    simp [Slot.move, hhandle, hgen]
  refine ⟨_, hmove ▸ helse.report rfl, hjob, ?_⟩
  rw [hmove, helse.world.coherent.move_deliver, View.deliver, Slot.told]
  simp only [Supervision.isSome_phase_view]
  split
  · rename_i ha
    simp [Supervision.view, ha.2, Slot.ofRun, Event.run, Slot.isCancelled]
  · simp [Supervision.view]

/-- The program of a run that has the slot runs. -/
theorem setRunning (h : Sees printed woken run job stage w v) :
    Sees printed woken run job stage { w with slot := w.slot.setRunning job.generation } v.setRunning := by
  obtain ⟨log, helse, hjob, rfl⟩ := h
  obtain ⟨handle, hhandle, hgen⟩ := helse.world.exists_handle hjob
  have hmove : w.slot.setRunning job.generation = w.slot.move (.setRunning run) := by
    simp [Slot.move, hhandle, hgen]
  refine ⟨_, hmove ▸ helse.report rfl, hjob, ?_⟩
  rw [hmove, helse.world.coherent.move_setRunning, View.setRunning]
  by_cases ha : w.slot.active = some run <;>
    simp [Supervision.view, ha, Slot.isCancelled, Slot.told]

/-- A run that ends has the slot no longer, and its end is told if it had it. -/
theorem finish (h : Sees printed woken run job stage w v) (outcome : Outcome) :
    Sees printed woken run job stage { w with slot := w.slot.finish job.generation run outcome }
      (v.finish run outcome) := by
  obtain ⟨log, helse, hjob, rfl⟩ := h
  obtain ⟨handle, hhandle, hgen⟩ := helse.world.exists_handle hjob
  have hmove : w.slot.finish job.generation run outcome = w.slot.move (.finish run outcome) := by
    simp [Slot.move, hhandle, hgen]
  refine ⟨_, hmove ▸ helse.report rfl, hjob, ?_⟩
  rw [hmove, helse.world.coherent.move_finish, View.finish, Slot.told]
  simp only [Supervision.isSome_phase_view]
  by_cases ha : w.slot.active = some run <;>
    simp [Supervision.view, ha, Slot.ofRun, Event.run, Slot.isCancelled]

/-- What a run does in the sandbox changes where it waits and what it owns. -/
theorem tend (h : Sees printed woken run job stage w v) {s' : Script} (ht : Tends run w.sandbox s')
    {waits : Point → Bool} (hwaits : ∀ point, (s'.gate point).callers.contains run = waits point)
    {owns : Nat → Option Process} (howns : ∀ p, owned s' run p = owns p) :
    Sees printed woken run job stage { w with sandbox := s' } { v with waits := waits, owns := owns } := by
  obtain ⟨log, helse, hjob, rfl⟩ := h
  obtain rfl := funext hwaits
  obtain rfl := funext howns
  have hrun : run < w.jobs.length := (List.getElem?_eq_some_iff.mp hjob).1
  exact ⟨log, helse.tend hrun ht, hjob, rfl⟩

theorem waits_eq (h : Sees printed woken run job stage w v) (point : Point) :
    (w.sandbox.gate point).callers.contains run = v.waits point := by
  obtain ⟨log, -, -, rfl⟩ := h
  rfl

theorem owned_eq (h : Sees printed woken run job stage w v) (p : Nat) :
    owned w.sandbox run p = v.owns p := by
  obtain ⟨log, -, -, rfl⟩ := h
  rfl

/-- A run that writes a file sees what it saw before. -/
theorem write (h : Sees printed woken run job stage w v) (path contents : String) :
    Sees printed woken run job stage { w with sandbox := (w.sandbox.write path contents).2 } v := by
  refine h.tend (Tends.write path contents) (fun point => ?_) fun p => ?_
  · rw [Script.gate_write, h.waits_eq]
  · rw [owned, Script.processes_write, ← h.owned_eq, owned]

/-- A run waits at a gate at which it arrives. -/
theorem await (h : Sees printed woken run job stage w v) (point : Point)
    (hheld : (w.sandbox.gate point).isHeld = true) :
    Sees printed woken run job stage { w with sandbox := w.sandbox.await point run }
      (v.atGate point true) := by
  refine h.tend (Tends.await hheld) (fun point' => ?_) fun p => ?_
  · rw [Script.gate_await, Function.update_apply, ← h.waits_eq]
    split <;> simp
  · rw [owned, Script.processes_await, ← h.owned_eq, owned]

/-- A run no longer waits at a gate that it leaves. -/
theorem leave (h : Sees printed woken run job stage w v) (point : Point) :
    Sees printed woken run job stage { w with sandbox := w.sandbox.leave point run }
      (v.atGate point false) := by
  refine h.tend (Tends.leave point) (fun point' => ?_) fun p => ?_
  · rw [Script.gate_leave, Function.update_apply, ← h.waits_eq]
    split <;> simp [List.contains_eq_mem]
  · rw [owned, Script.processes_leave, ← h.owned_eq, owned]

/-- A run whose program could not be started sees what it saw before. -/
theorem spawn_error (h : Sees printed woken run job stage w v) {launch : Launch} {failure : Failure}
    {s' : Script} (hs : w.sandbox.spawn run launch = (.error failure, s')) :
    Sees printed woken run job stage { w with sandbox := s' } v := by
  have ht : Tends run w.sandbox (w.sandbox.spawn run launch).2 := Tends.spawn launch
  have hgate := w.sandbox.gate_spawn run launch
  have hcases := w.sandbox.spawn_cases run launch
  simp only [hs, reduceCtorEq, false_and, or_false] at ht hgate hcases
  obtain ⟨-, -, hp⟩ := hcases
  refine h.tend ht (fun point => ?_) fun p => ?_
  · rw [hgate, h.waits_eq]
  · rw [owned, hp, ← h.owned_eq, owned]

/-- A run whose program has been started owns a process that has printed nothing. -/
theorem spawn_ok (h : Sees printed woken run job stage w v) {launch : Launch} {p : Nat} {s' : Script}
    (hs : w.sandbox.spawn run launch = (.ok p, s')) :
    printed p = [] ∧
      Sees printed woken run job stage { w with sandbox := s' }
        (v.withProcess p ⟨run, [], .alive, false, true⟩) := by
  have ht : Tends run w.sandbox (w.sandbox.spawn run launch).2 := Tends.spawn launch
  have hgate := w.sandbox.gate_spawn run launch
  have hcases := w.sandbox.spawn_cases run launch
  simp only [hs, reduceCtorEq, false_and, exists_false, false_or, Except.ok.injEq] at ht hgate hcases
  obtain ⟨rfl, hp⟩ := hcases
  constructor
  · obtain ⟨log, helse, -, -⟩ := h
    exact helse.world.unspawned _ (Nat.le_refl _)
  · refine h.tend ht (fun point => ?_) fun p => ?_
    · rw [hgate, h.waits_eq]
    · rw [owned, hp, Function.update_apply, ← h.owned_eq, owned, List.getElem?_append,
        List.getElem?_singleton]
      by_cases hlt : p < w.sandbox.processes.length
      · rw [if_pos hlt, if_neg (Nat.ne_of_lt hlt)]
      · rw [if_neg hlt, List.getElem?_eq_none (Nat.le_of_not_lt hlt)]
        by_cases hp : p = w.sandbox.processes.length
        · simp [hp]
        · have hsub : p - w.sandbox.processes.length ≠ 0 := by omega
          simp [hp, hsub]

/-- A run that does something with its process sees what it has become. -/
theorem modifyProcess (h : Sees printed woken run job stage w v) {p : Nat} {q : Process}
    (hq : v.owns p = some q) {f : Process → Process} (hf : (f q).owner = run) :
    Sees printed woken run job stage { w with sandbox := w.sandbox.modifyProcess p f }
      (v.withProcess p (f q)) := by
  obtain ⟨hp, hrun⟩ := h.processes_eq hq
  refine h.tend (Tends.modifyProcess hp hrun hf) (fun point => ?_) fun p' => ?_
  · rw [Script.gate_modifyProcess, h.waits_eq]
  · rw [owned, Script.getElem?_modifyProcess, Function.update_apply, ← h.owned_eq, owned]
    by_cases hpp : p' = p
    · rw [if_pos hpp, if_pos hpp.symm, hpp, hp, Option.map_some]
      exact Option.filter_some_pos (by simp [hf])
    · rw [if_neg hpp, if_neg (Ne.symm hpp)]

/-- A run that comes to another stage sees what it saw before. -/
theorem atStage (h : Sees printed woken run job stage w v) (stage' : Stage) :
    Sees printed woken run job stage' (w.atStage run stage') v := by
  obtain ⟨log, helse, hjob, rfl⟩ := h
  refine ⟨log, helse.atStage stage', ?_, rfl⟩
  simp [Supervision.atStage, hjob]

end Sees

end Scratchpad.Run
