import Scratchpad.Proofs.Slot.Move

/-!
# A slot that goes on from an earlier one

When nobody has the slot, it goes on as a new one does: runs have higher numbers and generations than in a
new slot, and all that is told is told to more subscribers. Everything else is the same.

## Main definitions

* `Event.rename`: an event of a run that goes by another name.
* `Slot.Sequel`: a slot goes on from an earlier one as another one does from nothing.

## Main statements

* `Slot.Sequel.first`: the first run that is started begins a sequel.
* `Slot.Sequel.isCurrent_eq`, `Slot.Sequel.isCancelled_eq`: a run asks the same and is answered the same.
* `Slot.Sequel.start`, `Slot.Sequel.killActive`, `Slot.Sequel.deliver`, `Slot.Sequel.setRunning`,
  `Slot.Sequel.finish`: what happens to both alike.
-/

namespace Scratchpad.Run

open Log

/-- An event of a run that goes by another name. -/
def Event.rename {Name Name' Item : Type} (f : Name → Name') : Event Name Item → Event Name' Item
  | .started run source => .started (f run) source
  | .output run entries => .output (f run) entries
  | .finished run outcome => .finished (f run) outcome

/-- The handle of a run that was started when the slot had been through more generations. -/
def Handle.raise (n : Nat) (h : Handle) : Handle := { h with generation := n + h.generation }

namespace Slot

variable {past s t : Slot} {run generation : Nat}

/-- A slot goes on from an earlier one as another one does from nothing. What the other one has told to the
only one who watches it has been told to everyone who listened when the earlier one was left. -/
structure Sequel (past s t : Slot) : Prop where
  generation : t.generation = past.generation + s.generation
  phase : t.phase = s.phase
  active : t.active = s.active.map (past.handles.length + ·)
  handles : t.handles = past.handles ++ s.handles.map (·.raise past.generation)
  output : t.output = s.output
  lastOutcome : t.lastOutcome = s.lastOutcome
  subscribers : ∃ log, s.subscribers = [⟨true, log⟩] ∧
    t.subscribers = past.subscribers.map (hear (log.map (.rename (past.handles.length + ·))))

namespace Sequel

/-- **The first run that is started begins a sequel**, whatever has been printed before and however the runs
before it have ended. -/
theorem first (hidle : past.active = none) (source : String) :
    Sequel past (empty.subscribe.start source) (past.start source) := by
  rw [Slot.start, Slot.start, killActive_of_idle hidle]
  refine ⟨rfl, rfl, rfl, rfl, rfl, rfl, [.started 0 source], rfl, ?_⟩
  exact congrArg (List.map · past.subscribers) (notify_eq_hear _)

/-! ## What runs are answered -/

theorem getElem?_handles (h : Sequel past s t) (run : Nat) :
    t.handles[past.handles.length + run]? = s.handles[run]?.map (·.raise past.generation) := by
  rw [h.handles, getElem?_append_map]

theorem isCancelled_eq (h : Sequel past s t) (run : Nat) :
    t.isCancelled (past.handles.length + run) = s.isCancelled run := by
  rw [isCancelled, isCancelled, h.getElem?_handles]
  cases s.handles[run]? <;> rfl

theorem isCurrent_eq (h : Sequel past s t) (generation : Nat) :
    t.isCurrent (past.generation + generation) = s.isCurrent generation := by
  rw [isCurrent, isCurrent, activeHandle?, activeHandle?, h.active]
  cases s.active with
  | none => rfl
  | some run =>
    rw [Option.map_some, Option.bind_some, Option.bind_some, h.getElem?_handles]
    cases s.handles[run]? with
    | none => rfl
    | some handle =>
      rw [Option.map_some, Option.any_some, Option.any_some, Handle.raise, Bool.eq_iff_iff, beq_iff_eq,
        beq_iff_eq, Nat.add_left_cancel_iff]

/-! ## What happens to both -/

theorem emit (h : Sequel past s t) (event : Event Nat Entry) :
    Sequel past (s.emit event) (t.emit (event.rename (past.handles.length + ·))) := by
  obtain ⟨log, hs, ht⟩ := h.subscribers
  refine ⟨h.generation, h.phase, h.active, h.handles, h.output, h.lastOutcome, log ++ [event], ?_, ?_⟩
  · rw [subscribers_emit, hs]
    rfl
  · rw [subscribers_emit, ht, List.map_map, List.map_append]
    apply List.map_congr_left
    intro u _
    rw [Function.comp_apply, notify_eq_hear, hear_hear, List.map_singleton]

/-- The run that has the slot in both is killed. -/
theorem killActive (h : Sequel past s t) : Sequel past s.killActive t.killActive := by
  rw [Slot.killActive, Slot.killActive, h.active]
  cases s.active with
  | none => exact h
  | some run =>
    have hhandles : t.handles.modify (past.handles.length + run) (fun h => { h with isCancelled := true }) =
        past.handles ++ (s.handles.modify run fun h => { h with isCancelled := true }).map
          (·.raise past.generation) := by
      rw [h.handles]
      exact modify_append_map past.handles s.handles run fun _ => rfl
    have hgeneration : t.generation + 1 = past.generation + (s.generation + 1) := by
      rw [h.generation, Nat.add_assoc]
    have hkilled : Sequel past
        { s with
          generation := s.generation + 1
          phase := .idle
          active := none
          handles := s.handles.modify run fun h => { h with isCancelled := true }
          lastOutcome := some .killed }
        { t with
          generation := t.generation + 1
          phase := .idle
          active := none
          handles := t.handles.modify (past.handles.length + run) fun h => { h with isCancelled := true }
          lastOutcome := some .killed } :=
      ⟨hgeneration, rfl, rfl, hhandles, h.output, rfl, h.subscribers⟩
    exact hkilled.emit (.finished run .killed)

/-- **A run that is started in both is the next one in both.** -/
theorem start (h : Sequel past s t) (source : String) : Sequel past (s.start source) (t.start source) := by
  have hkilled := h.killActive
  rw [Slot.start, Slot.start]
  generalize s.killActive = s at hkilled ⊢
  generalize t.killActive = t at hkilled ⊢
  have hrun : t.handles.length = past.handles.length + s.handles.length := by
    rw [hkilled.handles, List.length_append, List.length_map]
  have hgeneration : t.generation + 1 = past.generation + (s.generation + 1) := by
    rw [hkilled.generation, Nat.add_assoc]
  have hhandles : t.handles ++ [⟨t.generation + 1, false⟩] = past.handles ++
      (s.handles ++ [(⟨s.generation + 1, false⟩ : Handle)]).map (·.raise past.generation) := by
    rw [hkilled.handles, hgeneration, List.map_append, List.append_assoc]
    rfl
  have hstarted : Sequel past
      { s with
        generation := s.generation + 1
        phase := .starting
        active := some s.handles.length
        handles := s.handles ++ [⟨s.generation + 1, false⟩]
        output := []
        lastOutcome := none }
      { t with
        generation := t.generation + 1
        phase := .starting
        active := some t.handles.length
        handles := t.handles ++ [⟨t.generation + 1, false⟩]
        output := []
        lastOutcome := none } :=
    ⟨hgeneration, rfl, congrArg some hrun, hhandles, rfl, rfl, hkilled.subscribers⟩
  have htold := hstarted.emit (.started s.handles.length source)
  rwa [Event.rename, ← hrun] at htold

theorem clear (h : Sequel past s t) : Sequel past s.clear t.clear :=
  ⟨h.generation, h.phase, h.active, h.handles, rfl, h.lastOutcome, h.subscribers⟩

theorem deliver (h : Sequel past s t) (generation run : Nat) (entries : List Entry) :
    Sequel past (s.deliver generation run entries)
      (t.deliver (past.generation + generation) (past.handles.length + run) entries) := by
  rw [Slot.deliver, Slot.deliver, h.isCurrent_eq]
  split
  · have hextended : Sequel past { s with output := s.output ++ entries }
        { t with output := t.output ++ entries } :=
      ⟨h.generation, h.phase, h.active, h.handles, congrArg (· ++ entries) h.output, h.lastOutcome,
        h.subscribers⟩
    exact hextended.emit (.output run entries)
  · exact h

theorem setRunning (h : Sequel past s t) (generation : Nat) :
    Sequel past (s.setRunning generation) (t.setRunning (past.generation + generation)) := by
  rw [Slot.setRunning, Slot.setRunning, h.isCurrent_eq]
  split
  · exact ⟨h.generation, rfl, h.active, h.handles, h.output, h.lastOutcome, h.subscribers⟩
  · exact h

theorem finish (h : Sequel past s t) (generation run : Nat) (outcome : Outcome) :
    Sequel past (s.finish generation run outcome)
      (t.finish (past.generation + generation) (past.handles.length + run) outcome) := by
  rw [Slot.finish, Slot.finish, h.isCurrent_eq]
  split
  · have hfinished : Sequel past { s with phase := .idle, active := none, lastOutcome := some outcome }
        { t with phase := .idle, active := none, lastOutcome := some outcome } :=
      ⟨h.generation, rfl, rfl, h.handles, h.output, rfl, h.subscribers⟩
    exact hfinished.emit (.finished run outcome)
  · exact h

end Sequel

end Slot

end Scratchpad.Run
