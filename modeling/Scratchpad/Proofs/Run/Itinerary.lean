import Mathlib.Data.List.Iterate
import Scratchpad.Proofs.Run.Actions
import Scratchpad.Proofs.Sandbox.Record

/-!
# The ways of a history

In some turns jobs go on, one after another, and each goes leg by leg until it rests. So a history has an
itinerary: the legs that are gone in it, each with the job that goes it and the world in which it does so.
What holds of a run on its way holds at every stride of the itinerary. The other turns are quiet: nothing
but the owner of the slot acts, or the sandbox is told what to do.

## Main definitions

* `Turn.move?`: what the owner of the slot does in a turn.
* `Turn.isQuiet`: no job is added and none goes on.
* `Stride`: a leg that a job goes.
* `Supervision.strides`: the legs of a job that goes on.
* `Supervision.itinerary`: the legs that are gone in a history.

## Main statements

* `quiet_turn`: what a quiet turn does.
* `stride_induction`: what departing and every leg keep holds at every stride.
* `strides_induction`: what departing and every leg keep of the strides so far, going on keeps.
* `exists_of_mem_itinerary`: every stride is one of a job that goes on when the jobs before it have.
* `underway_of_mem_itinerary`: at every stride the view of the run fits the leg.
-/

namespace Scratchpad.Run

open Log Sandbox

/-! ## Quiet turns -/

/-- What the owner of the slot does in a turn. -/
def Turn.move? : Turn → Option Slot.Move
  | .act (.start source _ _ _) => some (.start source)
  | .act .stop => some .stop
  | .act .clear => some .clear
  | .act .subscribe => some .subscribe
  | .act (.unsubscribe subscriber) => some (.unsubscribe subscriber)
  | _ => none

/-- Whether no job is added in a turn and none goes on. -/
def Turn.isQuiet : Turn → Bool
  | .settle => false
  | .act (.start _ _ _ _) => false
  | .act (.advance _) => false
  | _ => true

/-- A turn that is not quiet adds a job, or lets the jobs go on. -/
theorem Turn.kinds (t : Turn) :
    t.isQuiet = true ∨ t = .settle ∨ (∃ ms, t = .act (.advance ms)) ∨
      ∃ source text matchLines environment, t = .act (.start source text matchLines environment) := by
  cases t with
  | settle => exact .inr (.inl rfl)
  | act action =>
    cases action with
    | start source text matchLines environment => exact .inr (.inr (.inr ⟨_, _, _, _, rfl⟩))
    | advance ms => exact .inr (.inr (.inl ⟨ms, rfl⟩))
    | _ => exact .inl rfl

/-- What the owner of the slot starts is what a run is asked for. -/
theorem Turn.bind_source?_move? (t : Turn) :
    t.move?.bind Slot.Move.source? = t.request?.map Request.source := by
  cases t with
  | settle => rfl
  | act action => cases action <;> rfl

theorem Turn.request?_of_isQuiet {t : Turn} (ht : t.isQuiet = true) : t.request? = none := by
  cases t with
  | settle => rfl
  | act action => cases action <;> first | rfl | cases ht

/-- Nobody gets the slot in a quiet turn. -/
theorem Turn.source?_of_isQuiet {t : Turn} (ht : t.isQuiet = true) {m : Slot.Move} (hm : t.move? = some m) :
    m.source? = none := by
  have hsource := t.bind_source?_move?
  rwa [hm, request?_of_isQuiet ht] at hsource

/-- **What a quiet turn does.** Jobs stay where they are, nothing is written or started, and the slot
becomes what its owner makes of it. -/
theorem quiet_turn (workshop : Workshop) {t : Turn} (ht : t.isQuiet = true) (w : Supervision) :
    (Supervision.turn workshop w t).jobs = w.jobs ∧
      (Supervision.turn workshop w t).sandbox.record = w.sandbox.record ∧
      (Supervision.turn workshop w t).slot = t.move?.elim w.slot w.slot.move := by
  cases t with
  | settle => cases ht
  | act action =>
    cases ha : action.addressee? with
    | some p =>
      have hmove : Turn.move? (.act action) = none := by
        cases action <;> first | rfl | cases ha
      rw [hmove, Supervision.turn]
      cases hq : w.sandbox.controlled? p with
      | none =>
        rw [perform_of_uncontrolled ha hq]
        exact ⟨rfl, rfl, rfl⟩
      | some q =>
        rw [perform_of_controlled ha hq, jobs_wake, sandbox_wake, slot_wake]
        exact ⟨rfl, rfl, rfl⟩
    | none =>
      cases action with
      | start source text matchLines environment => cases ht
      | stop =>
        exact ⟨jobs_wakeActive w, congrArg Script.record (sandbox_wakeActive w),
          congrArg Slot.stop (slot_wakeActive w)⟩
      | clear => exact ⟨rfl, rfl, rfl⟩
      | subscribe => exact ⟨rfl, rfl, rfl⟩
      | unsubscribe i => exact ⟨rfl, rfl, rfl⟩
      | emit p chunk => cases ha
      | exit p code => cases ha
      | lose p => cases ha
      | hold point => exact ⟨rfl, Script.record_modifyGate .., rfl⟩
      | release point =>
        obtain ⟨hslot, hsandbox, hjobs, -⟩ :=
          foldl_wake (w.sandbox.gate point).callers { w with sandbox := w.sandbox.release point }
        exact ⟨hjobs, (congrArg Script.record hsandbox).trans (Script.record_modifyGate ..), hslot⟩
      | failWrite reason => exact ⟨rfl, rfl, rfl⟩
      | failSpawn reason => exact ⟨rfl, rfl, rfl⟩
      | advance ms => cases ht

/-- Time stands still in a quiet turn. -/
theorem now_of_isQuiet (workshop : Workshop) {t : Turn} (ht : t.isQuiet = true) (w : Supervision) :
    (Supervision.turn workshop w t).now = w.now := by
  cases t with
  | settle => cases ht
  | act action =>
    rw [Supervision.turn]
    cases ha : action.addressee? with
    | some p =>
      cases hq : w.sandbox.controlled? p with
      | none => rw [perform_of_uncontrolled ha hq]
      | some q => rw [perform_of_controlled ha hq, now_wake]
    | none =>
      cases action with
      | start source text matchLines environment => cases ht
      | advance ms => cases ht
      | stop => exact now_wakeActive w
      | release point =>
        exact List.foldlRecOn (motive := fun w' => w'.now = w.now)
          (b := { w with sandbox := w.sandbox.release point }) _ Supervision.wake rfl
          fun w' hw' run _ => (now_wake w' run).trans hw'
      | emit p chunk => cases ha
      | exit p code => cases ha
      | lose p => cases ha
      | _ => rfl

/-! ## Strides -/

/-- A leg that a job goes, and the world in which it does so. -/
structure Stride where
  run : Nat
  job : Job
  leg : Leg
  world : Supervision

namespace Supervision

variable (workshop : Workshop)

/-- The legs of a job that goes on. -/
def strides (w : Supervision) (run : Nat) : List Stride :=
  match w.jobs[run]? with
  | none => []
  | some job =>
    let goOn (position : Leg × Supervision) := go workshop run job position.2 position.1
    (List.iterate goOn (depart run job w) 10).map fun position => ⟨run, job, position.1, position.2⟩

/-- The legs of all jobs that have been woken. -/
def stridesReady (w : Supervision) : List Stride :=
  said (resume workshop) (strides workshop) { w with ready := [] } w.ready

/-- The legs that are gone in a turn. Before time goes by, the jobs go on. -/
def stridesTurn (w : Supervision) : Turn → List Stride
  | .settle => stridesReady workshop w
  | .act (.advance _) => stridesReady workshop w
  | .act _ => []

variable {workshop} in
/-- No leg is gone in a quiet turn. -/
theorem stridesTurn_of_isQuiet {t : Turn} (ht : t.isQuiet = true) {w : Supervision} :
    stridesTurn workshop w t = [] := by
  cases t with
  | settle => cases ht
  | act action => cases action <;> first | rfl | cases ht

/-- The legs that are gone in a history. -/
def itinerary (turns : List Turn) : List Stride :=
  said (turn workshop) (stridesTurn workshop) initial turns

end Supervision

open Supervision

variable {workshop : Workshop} {w : Supervision} {run : Nat} {t : Stride}

/-- **What departing and every leg keep holds at every stride.** -/
theorem stride_induction {P : Leg × Supervision → Prop} (ht : t ∈ strides workshop w run)
    (hdepart : w.jobs[run]? = some t.job → P (depart run t.job w))
    (hgo : ∀ leg w, P (leg, w) → P (go workshop run t.job w leg)) :
    w.jobs[run]? = some t.job ∧ t.run = run ∧ P (t.leg, t.world) := by
  cases hjob : w.jobs[run]? with
  | none => simp [strides, hjob] at ht
  | some job =>
    simp only [strides, hjob, List.mem_map, List.mem_iterate] at ht
    obtain ⟨position, ⟨n, -, rfl⟩, rfl⟩ := ht
    refine ⟨rfl, rfl, ?_⟩
    exact Function.Iterate.rec P (hdepart hjob) (fun position hp => hgo position.1 position.2 hp) n

/-- **What departing and every leg keep of the strides so far, going on keeps.** Each leg adds the stride that
it is. -/
theorem strides_induction {P : List Stride → Leg × Supervision → Prop} {job : Job} {log : List Stride}
    (hjob : w.jobs[run]? = some job) (hdepart : P log (depart run job w))
    (hgo : ∀ log leg w, P log (leg, w) → P (log ++ [⟨run, job, leg, w⟩]) (go workshop run job w leg)) :
    P (log ++ strides workshop w run) (.rest, resume workshop w run) := by
  have hlegs : ∀ (n : Nat) (log : List Stride) (start : Leg × Supervision), P log start →
      P (log ++ (List.iterate (fun position => go workshop run job position.2 position.1) start n).map
          fun position => ⟨run, job, position.1, position.2⟩) (goOn workshop run job n start) := by
    intro n
    induction n with
    | zero =>
      intro log start hstart
      simpa [goOn] using hstart
    | succ n ih =>
      rintro log ⟨leg, w⟩ hstart
      rw [goOn_succ, List.iterate, List.map_cons, ← List.singleton_append, ← List.append_assoc]
      exact ih _ _ (hgo log leg w hstart)
  rw [← resume_eq_go hjob]
  simpa only [strides, hjob] using hlegs 10 log (depart run job w) hdepart

/-- The world in which a job goes on in a turn: some jobs have gone on before it. -/
theorem exists_of_mem_stridesTurn {turn : Turn} (ht : t ∈ stridesTurn workshop w turn) :
    ∃ before after, w.ready = before ++ t.run :: after ∧
      t ∈ strides workshop (before.foldl (resume workshop) { w with ready := [] }) t.run := by
  have hready : t ∈ stridesReady workshop w := by
    cases turn with
    | settle => exact ht
    | act action => cases action <;> first | exact ht | cases ht
  obtain ⟨before, run, after, hbefore, ht'⟩ := exists_of_mem_said hready
  obtain ⟨-, rfl, -⟩ := stride_induction (P := fun _ => True) ht' (fun _ => trivial) fun _ _ h => h
  exact ⟨before, after, hbefore, ht'⟩

/-- **Every stride of a history is one of a job that goes on** when the jobs before it have, and all is well
with every run then. -/
theorem exists_of_mem_itinerary {turns : List Turn} (ht : t ∈ itinerary workshop turns) :
    ∃ earlier later before after, turns = earlier ++ later ∧
      Sound (printed workshop earlier) (before ++ t.run :: after)
        { Supervision.after workshop earlier with ready := [] } ∧
      t ∈ strides workshop
        (before.foldl (resume workshop) { Supervision.after workshop earlier with ready := [] }) t.run := by
  obtain ⟨earlier, turn, later, rfl, ht'⟩ := exists_of_mem_said ht
  obtain ⟨before, after, hready, ht''⟩ := exists_of_mem_stridesTurn ht'
  refine ⟨earlier, turn :: later, before, after, rfl, ?_, ht''⟩
  exact hready ▸ (sound_after workshop earlier).setOff

/-- **At every stride of a history the view of the run fits the leg.** -/
theorem underway_of_mem_itinerary {turns : List Turn} (ht : t ∈ itinerary workshop turns) :
    ∃ printed woken, Underway printed woken t.run t.job (t.leg, t.world) := by
  obtain ⟨earlier, later, before, after, -, hsound, ht'⟩ := exists_of_mem_itinerary ht
  have hbefore : Sound (printed workshop earlier) (t.run :: after)
      (before.foldl (resume workshop) { Supervision.after workshop earlier with ready := [] }) :=
    hsound.foldl_resume
  refine ⟨printed workshop earlier, after, ?_⟩
  refine (stride_induction (P := Underway (printed workshop earlier) after t.run t.job) ht' ?_ ?_).2.2
  · intro hjob
    obtain ⟨v, hsees, hfits⟩ := hbefore.exists_sees hjob after
      fun r hr hmem => (List.mem_cons.mp hmem).resolve_left hr
    exact underway_depart hsees hfits
  · exact fun leg w hw => hw.go workshop

end Scratchpad.Run
