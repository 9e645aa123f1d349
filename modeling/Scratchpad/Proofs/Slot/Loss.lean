import Scratchpad.Proofs.Slot.Observation

/-!
# Runs that have lost the slot

A run loses the slot for good: when it ends, when it is killed, or when another one is started. From then
on nothing is told of it, whatever it reports and whatever else happens, so what anybody has received of it
stays as it is.

## Main definitions

* `Slot.HasLost`: a run was started and does not have the slot.
* `Slot.receivedOf`: what a subscriber has received of a run.

## Main statements

* `Slot.HasLost.move`: a run that has lost the slot does not get it back.
* `Slot.HasLost.ofRun_said`: nothing is ever told again of a run that has lost the slot.
* `Slot.HasLost.receivedOf_foldl`: nobody receives anything more of a run that has lost the slot.
-/

namespace Scratchpad.Run

open Log

namespace Slot

variable {s : Slot} {run : Nat}

/-- A handle is added by every start, and none is ever removed. -/
theorem length_handles_move (s : Slot) (m : Move) :
    (s.move m).handles.length = s.handles.length + m.source?.toList.length := by
  cases hm : m.source? with
  | none => simpa using congrArg List.length (map_generation_move s hm)
  | some source =>
    obtain rfl := Move.eq_start_of_source? hm
    simp [Slot.move, Slot.start]

/-- A run has lost the slot if it was started and does not have it. -/
def HasLost (run : Nat) (s : Slot) : Prop := run < s.handles.length ∧ s.active ≠ some run

/-- **A run that has lost the slot does not get it back.** -/
theorem HasLost.move (h : s.HasLost run) (hs : s.Coherent) (m : Move) : (s.move m).HasLost run := by
  obtain ⟨hrun, hlost⟩ := h
  refine ⟨by rw [length_handles_move]; omega, fun ha => ?_⟩
  cases hm : m.source? with
  | none => exact hlost (hs.active_of_move hm ha)
  | some source =>
    obtain rfl := Move.eq_start_of_source? hm
    have heq : s.handles.length = run := by simpa [Slot.move] using ha
    omega

/-- The active run loses the slot when it is killed. -/
theorem hasLost_killActive (hs : s.Coherent) (ha : s.active = some run) : s.killActive.HasLost run := by
  have hlatest := hs.latest run ha
  refine ⟨?_, by simp⟩
  rw [length_handles_killActive]
  omega

/-- Nothing is told of a run that has lost the slot. -/
theorem HasLost.ofRun_told (h : s.HasLost run) (m : Move) : ofRun run (s.told m) = [] := by
  obtain ⟨hrun, hlost⟩ := h
  have hkill : ofRun run s.toldKill = [] := by
    cases ha : s.active with
    | none => simp [toldKill, ha, ofRun]
    | some active =>
      have hne : active ≠ run := fun heq => hlost (by rw [ha, heq])
      simp [toldKill, ha, ofRun, Event.run, hne]
  cases m with
  | start source =>
    have hne : s.handles.length ≠ run := by omega
    rw [told, ofRun_append, hkill]
    simp [ofRun, Event.run, hne]
  | stop => exact hkill
  | clear => rfl
  | subscribe => rfl
  | unsubscribe i => rfl
  | setRunning run' => rfl
  | deliver run' entries =>
    rw [told]
    split
    · rename_i hc
      have hne : run' ≠ run := fun heq => hlost (heq ▸ hc.2)
      simp [ofRun, Event.run, hne]
    · rfl
  | finish run' outcome =>
    rw [told]
    split
    · rename_i hc
      have hne : run' ≠ run := fun heq => hlost (heq ▸ hc)
      simp [ofRun, Event.run, hne]
    · rfl

/-- **Nothing is ever told again of a run that has lost the slot.** -/
theorem HasLost.ofRun_said (h : s.HasLost run) (hs : s.Coherent) (moves : List Move) :
    ofRun run (said Slot.move told s moves) = [] := by
  induction moves generalizing s with
  | nil => rfl
  | cons m moves ih => rw [said, ofRun_append, h.ofRun_told m, ih (h.move hs m) (hs.move m)]; rfl

/-- What a subscriber has received of a run. Whoever has not joined yet has received nothing. -/
def receivedOf (run : Nat) (s : Slot) (i : Nat) : List (Event Nat Entry) :=
  s.subscribers[i]?.elim [] fun u => ofRun run u.received

/-- **Nobody receives anything more of a run that has lost the slot.** -/
theorem HasLost.receivedOf_foldl (h : s.HasLost run) (hs : s.Coherent) (moves : List Move) (i : Nat) :
    (moves.foldl Slot.move s).receivedOf run i = s.receivedOf run i := by
  induction moves generalizing s with
  | nil => rfl
  | cons m moves ih =>
    rw [List.foldl_cons, ih (h.move hs m) (hs.move m), receivedOf, hs.getElem?_subscribers_move m i]
    split
    · -- a new subscriber
      rename_i hnew
      rw [receivedOf, hnew.2, List.getElem?_eq_none (Nat.le_refl _)]
      rfl
    · rw [receivedOf]
      cases s.subscribers[i]? with
      | none => rfl
      | some u =>
        have htold := h.ofRun_told m
        by_cases hl : u.isListening <;> simp [hear, hl, htold]

end Slot

end Scratchpad.Run
