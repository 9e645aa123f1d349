import Scratchpad.Proofs.Log.Splitting
import Scratchpad.Proofs.Run.History
import Scratchpad.Proofs.Run.Leg
import Scratchpad.Proofs.Sandbox.Frame
import Scratchpad.Proofs.Slot.Grammar

/-!
# What a run can see of the world

A run has little to do with the rest of the world: the slot may be its own or not, it may have been told to
end, it may wait at a gate, it owns a process at most, and something has been told of it. This is its view
of the world. Whether all is well with a run is a matter of its view and its stage, and what another run
does changes neither.

## Main definitions

* `View`, `Supervision.view`: what concerns a run.
* `Fits`: how the view of a run fits its stage.
* `World`: what holds of the world apart from stages.
* `Tends`: what a run does in the sandbox.
* `Elsewhere`: all is well with every run but one.

## Main statements

* `Elsewhere.report`, `Elsewhere.tend`, `Elsewhere.atStage`: what a run does is nothing to the others.
-/

namespace Scratchpad.Run

open Log Sandbox

/-- The items that an event brings. -/
def Event.items {Name Item : Type} : Event Name Item → List Item
  | .output _ items => items
  | _ => []

/-- The entries that events bring. -/
def delivered (events : List (Event Nat Entry)) : List Entry := events.flatMap Event.items

@[simp] theorem delivered_nil : delivered [] = [] := rfl

@[simp] theorem delivered_append (events more : List (Event Nat Entry)) :
    delivered (events ++ more) = delivered events ++ delivered more := List.flatMap_append

/-- What the user is told when nobody knows how a program ended. -/
def lossMessage : String := (Failure.wait "process handle dropped").message

/-- A process, if a run owns it. -/
def owned (s : Script) (run p : Nat) : Option Process :=
  s.processes[p]?.filter fun q => q.owner == run

/-- What concerns a run. -/
structure View where
  /-- The phase of the slot, if the run has it. -/
  phase : Option Phase
  isCancelled : Bool
  /-- Whether the run waits at a gate. -/
  waits : Point → Bool
  /-- The processes of the run, by their numbers. -/
  owns : Nat → Option Process
  /-- The events of the run. -/
  told : List (Event Nat Entry)

/-- What concerns a run of a world in which events have been told. -/
def Supervision.view (w : Supervision) (log : List (Event Nat Entry)) (run : Nat) : View where
  phase := if w.slot.active = some run then some w.slot.phase else none
  isCancelled := w.slot.isCancelled run
  waits point := (w.sandbox.gate point).callers.contains run
  owns := owned w.sandbox run
  told := Slot.ofRun run log

/-- Neither files nor failures, nor what has been woken, nor the time are part of a view. -/
theorem Supervision.view_congr {w w' : Supervision} (hslot : w'.slot = w.slot)
    (hp : w'.sandbox.processes = w.sandbox.processes)
    (hcallers : ∀ point, (w'.sandbox.gate point).callers = (w.sandbox.gate point).callers)
    (log : List (Event Nat Entry)) (run : Nat) : w'.view log run = w.view log run := by
  have howns : ∀ p, owned w'.sandbox run p = owned w.sandbox run p := fun p => by
    rw [owned, owned, hp]
  simp only [Supervision.view, hslot, hcallers, funext howns]

namespace View

/-- A run that has no process yet. Nothing has been delivered unless it is over with the run. -/
structure Unspawned (v : View) : Prop where
  owns : ∀ p, v.owns p = none
  silent : v.isCancelled = false → v.phase = some .starting ∧ delivered v.told = []

/-- A run that attends to its only process. -/
structure Attends (v : View) (p : Nat) (q : Process) : Prop where
  owns : v.owns p = some q
  only : ∀ p', p' ≠ p → v.owns p' = none
  isAttended : q.isAttended = true
  isKilled : q.isKilled = false

/-- Everything that has been read is on its way: delivered, collected, or kept by the reader. -/
def Flows (v : View) (printed : Nat → List String) (matchLines : Bool) (p : Nat) (q : Process)
    (reader : LineReader) (batcher : Batcher Entry) : Prop :=
  v.isCancelled = false → v.phase = some .running ∧ ∃ chunks, printed p = chunks ++ q.unread ∧
    (LineReader.start matchLines).feedAll chunks = (delivered v.told ++ batcher.queue, reader)

/-- A run that is over. If it ended by itself, everything that its process printed has been delivered. -/
structure Over (v : View) (printed : Nat → List String) (matchLines : Bool) (run : Nat) : Prop where
  phase : v.phase = none
  dismissed : ∀ p q, v.owns p = some q →
    q.isAttended = false ∧ (q.control = .alive → q.isKilled = true)
  ended : v.isCancelled = false → ∀ p q, v.owns p = some q → q.control ≠ .alive
  exited : v.isCancelled = false → ∀ p q code, v.owns p = some q → q.control = .exited code →
    delivered v.told = LineReader.entriesOf matchLines (String.join (printed p)) ∧
      .finished run (.completed code) ∈ v.told
  lost : v.isCancelled = false → ∀ p q, v.owns p = some q → q.control = .lost →
    delivered v.told = LineReader.entriesOf matchLines (String.join (printed p)) ++
        [Entry.ofFailure lossMessage] ∧
      .finished run (.failed lossMessage) ∈ v.told

end View

/-- How the view of a run fits its stage. A run that has not been woken waits for something that has not
happened yet. -/
def Fits (printed : Nat → List String) (matchLines : Bool) (run : Nat) (v : View) (isWoken : Prop) :
    Stage → Prop
  | .fresh _ => v.Unspawned ∧ isWoken
  | .writing _ _ => v.Unspawned ∧ (isWoken ∨ v.isCancelled = false ∧ v.waits .write = true)
  | .spawning => v.Unspawned ∧ (isWoken ∨ v.waits .spawn = true)
  | .reading p reader batcher _ =>
    ∃ q, v.Attends p q ∧ v.Flows printed matchLines p q reader batcher ∧
      (isWoken ∨ v.isCancelled = false ∧ q.control = .alive ∧ q.unread = [])
  | .awaiting p reader batcher =>
    ∃ q, v.Attends p q ∧ v.Flows printed matchLines p q reader batcher ∧ q.control ≠ .alive ∧
      q.unread = [] ∧ (isWoken ∨ v.isCancelled = false ∧ v.waits .wait = true)
  | .ended => v.Over printed matchLines run

/-- A run that has been woken fits as it did before. -/
theorem Fits.wake {printed : Nat → List String} {matchLines : Bool} {run : Nat} {v : View}
    {isWoken isWoken' : Prop} {stage : Stage} (h : Fits printed matchLines run v isWoken stage)
    (hwoken : isWoken → isWoken') : Fits printed matchLines run v isWoken' stage := by
  cases stage with
  | fresh source => exact ⟨h.1, hwoken h.2⟩
  | writing part entry => exact ⟨h.1, h.2.imp_left hwoken⟩
  | spawning => exact ⟨h.1, h.2.imp_left hwoken⟩
  | reading p reader batcher nextFlush =>
    obtain ⟨q, hq, hflow, hwait⟩ := h
    exact ⟨q, hq, hflow, hwait.imp_left hwoken⟩
  | awaiting p reader batcher =>
    obtain ⟨q, hq, hflow, hcontrol, hunread, hwait⟩ := h
    exact ⟨q, hq, hflow, hcontrol, hunread, hwait.imp_left hwoken⟩
  | ended => exact h

/-- What holds of the world, apart from what holds of single runs. -/
structure World (printed : Nat → List String) (log : List (Event Nat Entry)) (w : Supervision) :
    Prop where
  slot : ∃ moves, w.slot = Slot.play moves ∧ log = Slot.story moves
  generations : w.jobs.map (·.generation) = w.slot.handles.map (·.generation)
  gates : ∀ point, (w.sandbox.gate point).isHeld = false → (w.sandbox.gate point).callers = []
  owners : ∀ (p : Nat) (q : Process), w.sandbox.processes[p]? = some q → q.owner < w.jobs.length
  unspawned : ∀ p, w.sandbox.processes.length ≤ p → printed p = []

namespace World

variable {printed : Nat → List String} {log : List (Event Nat Entry)} {w : Supervision}

theorem coherent (h : World printed log w) : w.slot.Coherent := by
  obtain ⟨moves, hslot, -⟩ := h.slot
  rw [hslot]
  exact Slot.coherent_play moves

theorem length_jobs (h : World printed log w) : w.jobs.length = w.slot.handles.length := by
  simpa using congrArg List.length h.generations

/-- Neither files nor failures, nor what has been woken, nor the time are part of it. -/
theorem congr (h : World printed log w) {w' : Supervision} (hslot : w'.slot = w.slot)
    (hjobs : w'.jobs = w.jobs) (hp : w'.sandbox.processes = w.sandbox.processes)
    (hcallers : ∀ point, (w'.sandbox.gate point).callers = (w.sandbox.gate point).callers)
    (hheld : ∀ point, (w'.sandbox.gate point).isHeld = false → (w.sandbox.gate point).isHeld = false) :
    World printed log w' where
  slot := by rw [hslot]; exact h.slot
  generations := by rw [hslot, hjobs]; exact h.generations
  gates point hfree := by rw [hcallers]; exact h.gates point (hheld point hfree)
  owners := by rw [hp, hjobs]; exact h.owners
  unspawned := by rw [hp]; exact h.unspawned

/-- A job has the generation of its handle. -/
theorem exists_handle (h : World printed log w) {run : Nat} {job : Job}
    (hjob : w.jobs[run]? = some job) :
    ∃ handle, w.slot.handles[run]? = some handle ∧ handle.generation = job.generation := by
  have hmap := congrArg (·[run]?) h.generations
  simp only [List.getElem?_map, hjob, Option.map_some] at hmap
  exact Option.map_eq_some_iff.mp hmap.symm

/-- A run that has not been started owns no process. -/
theorem owned_eq_none (h : World printed log w) {run : Nat} (hrun : w.jobs.length ≤ run) (p : Nat) :
    owned w.sandbox run p = none := by
  rw [owned, Option.filter_eq_none_iff]
  intro q hq howner
  have hlt := h.owners p q hq
  rw [beq_iff_eq] at howner
  omega

/-- Nothing has been told of a run that has not been started. -/
theorem ofRun_eq_nil (h : World printed log w) {run : Nat} (hrun : w.jobs.length ≤ run) :
    Slot.ofRun run log = [] := by
  have hlength := h.length_jobs
  obtain ⟨moves, hslot, rfl⟩ := h.slot
  refine Slot.ofRun_story_eq_nil ?_
  rw [← hslot]
  omega

/-- A run that has been told to end does not have the slot. -/
theorem phase_eq_none (h : World printed log w) {run : Nat} (hc : (w.view log run).isCancelled = true) :
    (w.view log run).phase = none := by
  simp only [Supervision.view, ite_eq_right_iff, reduceCtorEq, imp_false] at hc ⊢
  intro ha
  rw [h.coherent.kept run ha] at hc
  cases hc

theorem move (h : World printed log w) {m : Slot.Move} (hm : m.source? = none) :
    World printed (log ++ w.slot.told m) { w with slot := w.slot.move m } where
  slot := by
    obtain ⟨moves, hslot, rfl⟩ := h.slot
    exact ⟨moves ++ [m], by simp [hslot], by simp [hslot]⟩
  generations := by rw [Slot.map_generation_move _ hm]; exact h.generations
  gates := h.gates
  owners := h.owners
  unspawned := h.unspawned

theorem atStage (h : World printed log w) (run : Nat) (stage : Stage) :
    World printed log (w.atStage run stage) where
  slot := h.slot
  generations := by
    refine Eq.trans ?_ h.generations
    apply map_modify_of_eq
    exact fun job => rfl
  gates := h.gates
  owners p q hq := by simpa [Supervision.atStage] using h.owners p q hq
  unspawned := h.unspawned

end World

/-! ## What a run does in the sandbox -/

/-- What a run does in the sandbox is nothing to the other runs. -/
structure Tends (run : Nat) (s s' : Script) : Prop where
  gate : ∀ point, ((s.gate point).isHeld = false → (s.gate point).callers = []) →
    (s'.gate point).isHeld = false → (s'.gate point).callers = []
  waits : ∀ r, r ≠ run → ∀ point,
    (s'.gate point).callers.contains r = (s.gate point).callers.contains r
  owns : ∀ r, r ≠ run → ∀ p, owned s' r p = owned s r p
  length : s.processes.length ≤ s'.processes.length

namespace Tends

variable {run : Nat} {s : Script}

/-- Files and failures are nothing to any run. -/
theorem of_eq {s' : Script} (hgate : s'.gate = s.gate) (hp : s'.processes = s.processes) :
    Tends run s s' where
  gate point h := by rw [hgate]; exact h
  waits r _ point := by rw [hgate]
  owns r _ p := by rw [owned, owned, hp]
  length := Nat.le_of_eq (by rw [hp])

theorem write (path contents : String) : Tends run s (s.write path contents).2 :=
  of_eq (s.gate_write path contents) (s.processes_write path contents)

theorem spawn (launch : Launch) : Tends run s (s.spawn run launch).2 := by
  rcases s.spawn_cases run launch with ⟨failure, -, hp⟩ | ⟨-, hp⟩
  · exact of_eq (s.gate_spawn run launch) hp
  · refine ⟨fun point h => by rwa [Script.gate_spawn], fun r _ point => by rw [Script.gate_spawn],
      fun r hr p => ?_, by simp [hp]⟩
    simp only [owned, hp, List.getElem?_append, List.getElem?_singleton]
    split
    · rfl
    · rename_i hlt
      rw [List.getElem?_eq_none (Nat.le_of_not_lt hlt)]
      split <;> simp [Ne.symm hr]

theorem await {point : Point} (hheld : (s.gate point).isHeld = true) :
    Tends run s (s.await point run) where
  gate point' h := by
    rw [Script.gate_await]
    split
    · exact fun hheld' => absurd (hheld.symm.trans hheld') (by decide)
    · exact h
  waits r hr point' := by
    rw [Script.gate_await]
    split
    · rename_i hpoint
      simp [hpoint, hr]
    · rfl
  owns r _ p := by rw [owned, owned, Script.processes_await]
  length := Nat.le_of_eq (by rw [Script.processes_await])

theorem leave (point : Point) : Tends run s (s.leave point run) where
  gate point' h := by
    rw [Script.gate_leave]
    split
    · rename_i hpoint
      intro hheld
      rw [hpoint] at h
      simp [h hheld]
    · exact h
  waits r hr point' := by
    rw [Script.gate_leave]
    split
    · rename_i hpoint
      simp [hpoint, hr, List.contains_eq_mem]
    · rfl
  owns r _ p := by rw [owned, owned, Script.processes_leave]
  length := Nat.le_of_eq (by rw [Script.processes_leave])

/-- A run may do with its process what it likes. -/
theorem modifyProcess {p : Nat} {q : Process} {f : Process → Process} (hq : s.processes[p]? = some q)
    (hrun : q.owner = run) (hf : (f q).owner = run) : Tends run s (s.modifyProcess p f) where
  gate point h := by rwa [Script.gate_modifyProcess]
  waits r _ point := by rw [Script.gate_modifyProcess]
  owns r hr p' := by
    rw [owned, owned, Script.getElem?_modifyProcess]
    split
    · rename_i hp
      have hne : run ≠ r := Ne.symm hr
      rw [← hp, hq, Option.map_some, Option.filter_some_neg (by simpa [hf] using hne),
        Option.filter_some_neg (by simpa [hrun] using hne)]
    · rfl
  length := Nat.le_of_eq (Script.length_modifyProcess ..).symm

end Tends

/-! ## All is well elsewhere -/

/-- All is well with every run but one. -/
structure Elsewhere (printed : Nat → List String) (woken : List Nat) (run : Nat)
    (log : List (Event Nat Entry)) (w : Supervision) : Prop where
  world : World printed log w
  fits : ∀ r job, r ≠ run → w.jobs[r]? = some job →
    Fits printed job.matchLines r (w.view log r) (r ∈ woken) job.stage

namespace Elsewhere

variable {printed : Nat → List String} {woken : List Nat} {run : Nat} {log : List (Event Nat Entry)}
  {w : Supervision}

/-- **What a run reports is nothing to the others.** -/
theorem report (h : Elsewhere printed woken run log w) {m : Slot.Move} (hm : m.reporter? = some run) :
    Elsewhere printed woken run (log ++ w.slot.told m) { w with slot := w.slot.move m } := by
  have hsource := Slot.Move.source?_of_reporter? (m := m) (by rw [hm]; rfl)
  refine ⟨h.world.move hsource, ?_⟩
  intro r job hr hjob
  have hview : ({ w with slot := w.slot.move m } : Supervision).view (log ++ w.slot.told m) r =
      w.view log r := by
    have hs := h.world.coherent
    cases m with
    | deliver run' entries =>
      obtain rfl : run' = run := by simpa [Slot.Move.reporter?] using hm
      simp only [Supervision.view, hs.move_deliver, Slot.told]
      split
      · rename_i hc
        simp [Slot.isCancelled, Slot.ofRun, Event.run, hc.2, Ne.symm hr]
      · simp
    | setRunning run' =>
      obtain rfl : run' = run := by simpa [Slot.Move.reporter?] using hm
      simp only [Supervision.view, hs.move_setRunning, Slot.told, List.append_nil]
      split
      · rename_i ha
        simp [Slot.isCancelled, ha, Ne.symm hr]
      · rfl
    | finish run' outcome =>
      obtain rfl : run' = run := by simpa [Slot.Move.reporter?] using hm
      simp only [Supervision.view, hs.move_finish, Slot.told]
      split
      · rename_i ha
        simp [Slot.isCancelled, Slot.ofRun, Event.run, ha, Ne.symm hr]
      · simp
    | _ => simp [Slot.Move.reporter?] at hm
  rw [hview]
  exact h.fits r job hr hjob

/-- **What a run does in the sandbox is nothing to the others.** -/
theorem tend (h : Elsewhere printed woken run log w) (hrun : run < w.jobs.length) {s' : Script}
    (ht : Tends run w.sandbox s') : Elsewhere printed woken run log { w with sandbox := s' } := by
  refine ⟨⟨h.world.slot, h.world.generations, fun point => ht.gate point (h.world.gates point), ?_,
    fun p hp => h.world.unspawned p (Nat.le_trans ht.length hp)⟩, fun r job hr hjob => ?_⟩
  · intro p q hq
    by_cases hrun' : q.owner = run
    · rw [hrun']
      exact hrun
    · -- a process of another run
      have howns := ht.owns q.owner hrun' p
      simp only [owned, hq, Option.filter_some, beq_self_eq_true, if_true] at howns
      exact h.world.owners p q (Option.eq_some_of_filter_eq_some howns.symm)
  · have hview : ({ w with sandbox := s' } : Supervision).view log r = w.view log r := by
      simp only [Supervision.view, View.mk.injEq, true_and, and_true]
      exact ⟨funext fun point => ht.waits r hr point, funext fun p => ht.owns r hr p⟩
    rw [hview]
    exact h.fits r job hr hjob

/-- **To which stage a run comes is nothing to the others.** -/
theorem atStage (h : Elsewhere printed woken run log w) (stage : Stage) :
    Elsewhere printed woken run log (w.atStage run stage) := by
  refine ⟨h.world.atStage run stage, ?_⟩
  intro r job hr hjob
  have hjob' : w.jobs[r]? = some job := by
    simpa [Supervision.atStage, List.getElem?_modify, Ne.symm hr] using hjob
  exact h.fits r job hr hjob'

end Elsewhere

end Scratchpad.Run
