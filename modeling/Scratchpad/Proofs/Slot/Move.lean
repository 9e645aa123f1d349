import Mathlib.Data.List.Induction
import Mathlib.Data.List.Nodup
import Scratchpad.Proofs.Basic
import Scratchpad.Run.Slot

/-!
# Moves of the slot

Everything that touches the slot does so in one piece: its owner starts and stops runs and clears the
output, subscribers come and go, and a run delivers entries, reports that its program has been started, or
ends. The pieces come in any order, also those of runs that have long lost the slot.

A run knows itself by the generation of its handle. Generations grow from handle to handle, so of all
runs only the active one has the generation that the slot asks for.

## Main definitions

* `Slot.Move`, `Slot.move`, `Slot.play`: what happens to the slot, once and one after another.
* `Slot.told`, `Slot.story`: the events that everyone who listens is told.
* `Slot.Coherent`: what holds of the slot after any moves.

## Main statements

* `Slot.Coherent.isCurrent_iff`: a generation is current if and only if its run is active.
* `Slot.coherent_play`: the slot is coherent after any moves.
* `Slot.exists_received`: what a subscriber has received is a segment of the story.
-/

namespace Scratchpad.Run

open Log

namespace Slot

/-- What happens to the slot in one piece. Runs go by their number. -/
inductive Move where
  | start (source : String)
  | stop
  | clear
  | subscribe
  | unsubscribe (subscriber : Nat)
  /-- A run prints entries. -/
  | deliver (run : Nat) (entries : List Entry)
  /-- The program of a run has been started. -/
  | setRunning (run : Nat)
  /-- A run ends. -/
  | finish (run : Nat) (outcome : Outcome)
deriving DecidableEq, Repr

/-- The source for which a move starts a run. -/
def Move.source? : Move → Option String
  | .start source => some source
  | _ => none

/-- The run that reports in a move. -/
def Move.reporter? : Move → Option Nat
  | .deliver run _ => some run
  | .setRunning run => some run
  | .finish run _ => some run
  | _ => none

/-- Whoever reports starts no run. -/
theorem Move.source?_of_reporter? {m : Move} (h : m.reporter?.isSome = true) : m.source? = none := by
  cases m <;> first | rfl | cases h

/-- Only a start starts a run. -/
theorem Move.eq_start_of_source? {m : Move} {source : String} (h : m.source? = some source) :
    m = .start source := by
  cases m with
  | start source' => exact congrArg Move.start (Option.some.inj h)
  | _ => cases h

/-- The slot after a move. A run reports with the generation of its handle. -/
def move (s : Slot) : Move → Slot
  | .start source => s.start source
  | .stop => s.stop
  | .clear => s.clear
  | .subscribe => s.subscribe
  | .unsubscribe subscriber => s.unsubscribe subscriber
  | .deliver run entries => s.handles[run]?.elim s fun h => s.deliver h.generation run entries
  | .setRunning run => s.handles[run]?.elim s fun h => s.setRunning h.generation
  | .finish run outcome => s.handles[run]?.elim s fun h => s.finish h.generation run outcome

/-- The slot after moves, from a slot that nothing has happened to and that one subscriber watches. -/
def play (moves : List Move) : Slot := moves.foldl move empty.subscribe

/-- The end of the active run, if there is one. -/
def toldKill (s : Slot) : List (Event Nat Entry) := s.active.toList.map (.finished · .killed)

/-- The events that everyone who listens is told by a move. -/
def told (s : Slot) : Move → List (Event Nat Entry)
  | .start source => s.toldKill ++ [.started s.handles.length source]
  | .stop => s.toldKill
  | .deliver run entries =>
    if entries ≠ [] ∧ s.active = some run then [.output run entries] else []
  | .finish run outcome => if s.active = some run then [.finished run outcome] else []
  | _ => []

/-- The events that someone who has always listened is told. -/
def story (moves : List Move) : List (Event Nat Entry) := said move told empty.subscribe moves

@[simp] theorem play_nil : play [] = empty.subscribe := rfl

@[simp] theorem play_append_singleton (moves : List Move) (m : Move) :
    play (moves ++ [m]) = (play moves).move m := by
  simp [play]

@[simp] theorem story_append_singleton (moves : List Move) (m : Move) :
    story (moves ++ [m]) = story moves ++ (play moves).told m :=
  said_append_singleton ..

/-! ## What telling leaves alone -/

section Emit

variable (s : Slot) (event : Event Nat Entry)

@[simp] theorem generation_emit : (s.emit event).generation = s.generation := rfl

@[simp] theorem phase_emit : (s.emit event).phase = s.phase := rfl

@[simp] theorem active_emit : (s.emit event).active = s.active := rfl

@[simp] theorem handles_emit : (s.emit event).handles = s.handles := rfl

@[simp] theorem subscribers_emit :
    (s.emit event).subscribers = s.subscribers.map (·.notify event) := rfl

end Emit

/-! ## What runs leave alone when they report -/

section Report

variable (s : Slot) (generation : Nat)

@[simp] theorem handles_deliver (run : Nat) (entries : List Entry) :
    (s.deliver generation run entries).handles = s.handles := by
  rw [deliver]
  split <;> rfl

@[simp] theorem handles_setRunning : (s.setRunning generation).handles = s.handles := by
  rw [setRunning]
  split <;> rfl

@[simp] theorem handles_finish (run : Nat) (outcome : Outcome) :
    (s.finish generation run outcome).handles = s.handles := by
  rw [finish]
  split <;> rfl

end Report

/-! ## Killing the active run -/

theorem killActive_of_idle {s : Slot} (h : s.active = none) : s.killActive = s := by
  simp [killActive, h]

@[simp] theorem active_killActive (s : Slot) : s.killActive.active = none := by
  rw [killActive]
  cases h : s.active <;> simp [h]

@[simp] theorem length_handles_killActive (s : Slot) :
    s.killActive.handles.length = s.handles.length := by
  rw [killActive]
  cases s.active <;> simp

/-- A kill changes no generation of a handle. -/
@[simp] theorem map_generation_killActive (s : Slot) :
    s.killActive.handles.map (·.generation) = s.handles.map (·.generation) := by
  rw [killActive]
  cases h : s.active with
  | none => rfl
  | some run =>
    apply map_modify_of_eq
    exact fun h => rfl

/-- Only a start changes what generations the handles have. -/
theorem map_generation_move (s : Slot) {m : Move} (hm : m.source? = none) :
    (s.move m).handles.map (·.generation) = s.handles.map (·.generation) := by
  cases m with
  | start source => simp [Move.source?] at hm
  | stop => exact map_generation_killActive s
  | clear => rfl
  | subscribe => rfl
  | unsubscribe i => rfl
  | deliver run entries => cases hh : s.handles[run]? <;> simp [move, hh]
  | setRunning run => cases hh : s.handles[run]? <;> simp [move, hh]
  | finish run outcome => cases hh : s.handles[run]? <;> simp [move, hh]

theorem generation_le_killActive (s : Slot) : s.generation ≤ s.killActive.generation := by
  rw [killActive]
  cases s.active <;> simp

/-- A run that is killed is cancelled, and no other. -/
theorem isCancelled_killActive (s : Slot) (run : Nat) :
    s.killActive.isCancelled run =
      (s.isCancelled run || (s.handles[run]?.isSome && s.active == some run)) := by
  rw [killActive, isCancelled, isCancelled]
  cases h : s.active with
  | none => simp
  | some active =>
    simp only [handles_emit, List.getElem?_modify]
    by_cases hr : active = run <;> cases s.handles[run]? <;> simp [hr]

/-! ## Starting a run -/

@[simp] theorem active_start (s : Slot) (source : String) :
    (s.start source).active = some s.handles.length := by
  simp [start]

@[simp] theorem phase_start (s : Slot) (source : String) : (s.start source).phase = .starting := rfl

/-- A start tells no run to end but the one that it kills. -/
theorem isCancelled_start (s : Slot) (source : String) (run : Nat) :
    (s.start source).isCancelled run = s.killActive.isCancelled run := by
  rw [isCancelled, isCancelled, start]
  simp only [handles_emit, List.getElem?_append, List.getElem?_singleton]
  split
  · rfl
  · rename_i hrun
    rw [List.getElem?_eq_none (Nat.le_of_not_lt hrun)]
    split <;> rfl

/-! ## Coherence -/

/-- What holds of the slot after any moves. -/
structure Coherent (s : Slot) : Prop where
  /-- Later runs have higher generations. -/
  increasing : (s.handles.map (·.generation)).Pairwise (· < ·)
  /-- No run has a generation that the slot has not reached. -/
  bounded : ∀ g ∈ s.handles.map (·.generation), g ≤ s.generation
  /-- Only the latest run can have the slot. -/
  latest : ∀ run, s.active = some run → run + 1 = s.handles.length
  /-- The run that has the slot has not been told to end. -/
  kept : ∀ run, s.active = some run → s.isCancelled run = false

namespace Coherent

variable {s : Slot}

/-- **A generation is current if and only if its run is active.** -/
theorem isCurrent_iff (hs : s.Coherent) {run : Nat} {h : Handle} (hh : s.handles[run]? = some h) :
    s.isCurrent h.generation = true ↔ s.active = some run := by
  rw [isCurrent, activeHandle?]
  cases ha : s.active with
  | none => simp
  | some active =>
    have hlt : active < s.handles.length := by have := hs.latest active ha; omega
    obtain ⟨hrun, rfl⟩ := List.getElem?_eq_some_iff.mp hh
    have hnodup : (s.handles.map (·.generation)).Nodup := hs.increasing.imp fun h => Nat.ne_of_lt h
    have hactive : active < (s.handles.map (·.generation)).length := by simpa using hlt
    have hrun' : run < (s.handles.map (·.generation)).length := by simpa using hrun
    have hinj : (s.handles.map (·.generation))[active] = (s.handles.map (·.generation))[run] ↔
        active = run := hnodup.getElem_inj_iff
    simpa [List.getElem?_eq_getElem hlt] using hinj

/-- A run without a handle does not have the slot. -/
theorem active_ne_of_handles (hs : s.Coherent) {run : Nat} (hh : s.handles[run]? = none) :
    s.active ≠ some run := by
  intro ha
  have hlatest := hs.latest run ha
  have hle := List.getElem?_eq_none_iff.mp hh
  omega

/-- Only the active run prints. -/
theorem move_deliver (hs : s.Coherent) (run : Nat) (entries : List Entry) :
    s.move (.deliver run entries) =
      if entries ≠ [] ∧ s.active = some run then
        emit { s with output := s.output ++ entries } (.output run entries)
      else s := by
  cases hh : s.handles[run]? with
  | none => simp [Slot.move, hh, hs.active_ne_of_handles hh]
  | some h =>
    simp only [Slot.move, hh, Option.elim_some, deliver, Bool.and_eq_true, hs.isCurrent_iff hh]
    simp

/-- Only the program of the active run is reported to have been started. -/
theorem move_setRunning (hs : s.Coherent) (run : Nat) :
    s.move (.setRunning run) = if s.active = some run then { s with phase := .running } else s := by
  cases hh : s.handles[run]? with
  | none => simp [Slot.move, hh, hs.active_ne_of_handles hh]
  | some h => simp only [Slot.move, hh, Option.elim_some, setRunning, hs.isCurrent_iff hh]

/-- Only the active run ends. -/
theorem move_finish (hs : s.Coherent) (run : Nat) (outcome : Outcome) :
    s.move (.finish run outcome) =
      if s.active = some run then
        emit { s with phase := .idle, active := none, lastOutcome := some outcome }
          (.finished run outcome)
      else s := by
  cases hh : s.handles[run]? with
  | none => simp [Slot.move, hh, hs.active_ne_of_handles hh]
  | some h => simp only [Slot.move, hh, Option.elim_some, finish, hs.isCurrent_iff hh]

/-- A run that does not have the slot reports in vain. -/
theorem move_of_reporter? (hs : s.Coherent) {m : Move} {run : Nat} (hm : m.reporter? = some run)
    (ha : s.active ≠ some run) : s.move m = s := by
  cases m with
  | deliver run' entries =>
    obtain rfl : run' = run := Option.some.inj hm
    rw [hs.move_deliver, if_neg fun h => ha h.2]
  | setRunning run' =>
    obtain rfl : run' = run := Option.some.inj hm
    rw [hs.move_setRunning, if_neg ha]
  | finish run' outcome =>
    obtain rfl : run' = run := Option.some.inj hm
    rw [hs.move_finish, if_neg ha]
  | _ => cases hm

theorem killActive (hs : s.Coherent) : s.killActive.Coherent where
  increasing := by simpa using hs.increasing
  bounded g hg := by
    rw [map_generation_killActive] at hg
    exact Nat.le_trans (hs.bounded g hg) (generation_le_killActive s)
  latest run hrun := by simp at hrun
  kept run hrun := by simp at hrun

/-- What keeps the handles and does not give the slot to anyone keeps the slot coherent. -/
theorem of_handles_eq (hs : s.Coherent) {t : Slot} (hh : t.handles = s.handles)
    (hg : t.generation = s.generation) (ha : ∀ run, t.active = some run → s.active = some run) :
    t.Coherent where
  increasing := by rw [hh]; exact hs.increasing
  bounded := by rw [hh, hg]; exact hs.bounded
  latest run hrun := by rw [hh]; exact hs.latest run (ha run hrun)
  kept run hrun := by rw [isCancelled, hh]; exact hs.kept run (ha run hrun)

theorem start (hs : s.Coherent) (source : String) : (s.start source).Coherent where
  increasing := by
    have hk := hs.killActive
    simp only [Slot.start, handles_emit, List.map_append, List.map_cons, List.map_nil]
    refine List.pairwise_append.mpr ⟨hk.increasing, by simp, fun g hg g' hg' => ?_⟩
    have := hk.bounded g hg
    simp only [List.mem_singleton] at hg'
    omega
  bounded g hg := by
    simp only [Slot.start, handles_emit, List.map_append, List.map_cons, List.map_nil,
      List.mem_append, List.mem_singleton, generation_emit] at hg ⊢
    rcases hg with hg | rfl
    · exact Nat.le_trans (hs.killActive.bounded g hg) (Nat.le_succ _)
    · exact Nat.le_refl _
  latest run hrun := by
    simp only [Slot.start, active_emit, handles_emit, List.length_append, List.length_singleton,
      Option.some.injEq] at hrun ⊢
    omega
  kept run hrun := by
    simp only [Slot.start, active_emit, Option.some.injEq] at hrun
    simp [Slot.start, isCancelled, ← hrun]

/-- A coherent slot is coherent after any move. -/
theorem move (hs : s.Coherent) (m : Move) : (s.move m).Coherent := by
  cases m with
  | start source => exact hs.start source
  | stop => exact hs.killActive
  | clear => exact hs.of_handles_eq rfl rfl fun _ h => h
  | subscribe => exact hs.of_handles_eq rfl rfl fun _ h => h
  | unsubscribe subscriber => exact hs.of_handles_eq rfl rfl fun _ h => h
  | deliver run entries =>
    rw [hs.move_deliver]
    split
    · exact hs.of_handles_eq rfl rfl fun _ h => h
    · exact hs
  | setRunning run =>
    rw [hs.move_setRunning]
    split
    · exact hs.of_handles_eq rfl rfl fun _ h => h
    · exact hs
  | finish run outcome =>
    rw [hs.move_finish]
    split
    · exact hs.of_handles_eq rfl rfl fun _ h => by simp at h
    · exact hs

end Coherent

theorem coherent_empty : empty.subscribe.Coherent := by
  constructor <;> simp [empty, subscribe]

/-- **The slot is coherent after any moves.** -/
theorem coherent_play (moves : List Move) : (play moves).Coherent := by
  induction moves using List.reverseRecOn with
  | nil => exact coherent_empty
  | append_singleton moves m ih => simpa using ih.move m

/-! ## What subscribers receive -/

/-- A subscriber whom events reach one after another, if the subscriber listens. -/
def hear (events : List (Event Nat Entry)) (u : Subscriber) : Subscriber :=
  if u.isListening then { u with received := u.received ++ events } else u

@[simp] theorem hear_nil : hear [] = id := by
  funext u
  rw [hear]
  split <;> simp

theorem notify_eq_hear (event : Event Nat Entry) : Subscriber.notify event = hear [event] := rfl

@[simp] theorem isListening_hear (events : List (Event Nat Entry)) (u : Subscriber) :
    (hear events u).isListening = u.isListening := by
  rw [hear]
  split <;> rfl

theorem hear_hear (events more : List (Event Nat Entry)) (u : Subscriber) :
    hear more (hear events u) = hear (events ++ more) u := by
  by_cases h : u.isListening <;> simp [hear, h]

theorem subscribers_killActive (s : Slot) :
    s.killActive.subscribers = s.subscribers.map (hear s.toldKill) := by
  rw [killActive, toldKill]
  cases s.active with
  | none => simp
  | some run => simp [notify_eq_hear]

/-- Whoever listens is told what a move tells, unless the move is about subscribers. -/
theorem Coherent.subscribers_move {s : Slot} (hs : s.Coherent) {m : Move} (hm : m ≠ .subscribe)
    (hm' : ∀ i, m ≠ .unsubscribe i) :
    (s.move m).subscribers = s.subscribers.map (hear (s.told m)) := by
  cases m with
  | start source =>
    simp [Slot.move, told, Slot.start, subscribers_killActive, notify_eq_hear, Function.comp_def,
      hear_hear]
  | stop => exact subscribers_killActive s
  | clear => simp [Slot.move, told, clear]
  | subscribe => exact absurd rfl hm
  | unsubscribe i => exact absurd rfl (hm' i)
  | deliver run entries =>
    rw [hs.move_deliver, told]
    split <;> simp [notify_eq_hear]
  | setRunning run =>
    rw [hs.move_setRunning]
    split <;> simp [told]
  | finish run outcome =>
    rw [hs.move_finish, told]
    split <;> simp [notify_eq_hear]

/-- What a subscriber has after a move: what the subscriber had before with what the move told, or
nothing if the subscriber is new. -/
theorem Coherent.subscriber_cases {s : Slot} (hs : s.Coherent) (m : Move) {i : Nat} {u : Subscriber}
    (hu : (s.move m).subscribers[i]? = some u) :
    (i = s.subscribers.length ∧ u = ⟨true, []⟩ ∧ s.told m = []) ∨
      ∃ v, s.subscribers[i]? = some v ∧ (u.isListening = true → v.isListening = true) ∧
        u.received = if v.isListening then v.received ++ s.told m else v.received := by
  by_cases hsub : m = .subscribe
  · subst hsub
    simp only [Slot.move, Slot.subscribe, List.getElem?_append, List.getElem?_singleton] at hu
    split at hu
    · exact .inr ⟨u, hu, id, by simp [told]⟩
    · split at hu
      · exact .inl ⟨by omega, (Option.some.inj hu).symm, rfl⟩
      · exact absurd hu (by simp)
  by_cases hunsub : ∃ j, m = .unsubscribe j
  · obtain ⟨j, rfl⟩ := hunsub
    simp only [Slot.move, Slot.unsubscribe, List.getElem?_modify] at hu
    obtain ⟨v, hv, rfl⟩ := Option.map_eq_some_iff.mp hu
    refine .inr ⟨v, hv, ?_, ?_⟩ <;> by_cases hij : j = i <;> simp [hij, told]
  · rw [hs.subscribers_move hsub fun j hj => hunsub ⟨j, hj⟩, List.getElem?_map] at hu
    obtain ⟨v, hv, rfl⟩ := Option.map_eq_some_iff.mp hu
    refine .inr ⟨v, hv, by simp, ?_⟩
    rw [hear]
    split <;> rfl

theorem subscribers_play_ne_nil (moves : List Move) : (play moves).subscribers ≠ [] := by
  induction moves using List.reverseRecOn with
  | nil => simp [empty, subscribe]
  | append_singleton moves m ih =>
    rw [play_append_singleton]
    by_cases hsub : m = .subscribe
    · simp [hsub, move, subscribe]
    by_cases hunsub : ∃ j, m = .unsubscribe j
    · obtain ⟨j, rfl⟩ := hunsub
      simpa [move, unsubscribe] using ih
    · rw [(coherent_play moves).subscribers_move hsub fun j hj => hunsub ⟨j, hj⟩]
      simpa using ih

/-- **What a subscriber has received is a segment of the story.** It reaches to the end of the story for
as long as the subscriber listens, and the first subscriber has received the story from its beginning. -/
theorem exists_received (moves : List Move) {i : Nat} {u : Subscriber}
    (hu : (play moves).subscribers[i]? = some u) :
    ∃ earlier later, story moves = earlier ++ u.received ++ later ∧
      (u.isListening = true → later = []) ∧ (i = 0 → earlier = []) := by
  induction moves using List.reverseRecOn generalizing u with
  | nil =>
    refine ⟨[], [], ?_, fun _ => rfl, fun _ => rfl⟩
    rcases i with _ | i
    · obtain rfl : (⟨true, []⟩ : Subscriber) = u := by simpa [empty, subscribe] using hu
      rfl
    · simp [empty, subscribe] at hu
  | append_singleton moves m ih =>
    rw [play_append_singleton] at hu
    rw [story_append_singleton]
    rcases (coherent_play moves).subscriber_cases m hu with ⟨rfl, rfl, htold⟩ | ⟨v, hv, hl, hr⟩
    · -- a new subscriber
      refine ⟨story moves, [], by simp [htold], fun _ => rfl, fun h => ?_⟩
      exact absurd (List.length_eq_zero_iff.mp h) (subscribers_play_ne_nil moves)
    · obtain ⟨earlier, later, hstory, hlater, hfirst⟩ := ih hv
      cases hlv : v.isListening with
      | true =>
        obtain rfl := hlater hlv
        exact ⟨earlier, [], by simp [hstory, hr, hlv], fun _ => rfl, hfirst⟩
      | false =>
        refine ⟨earlier, later ++ (play moves).told m, by simp [hstory, hr, hlv], ?_, hfirst⟩
        exact fun h => absurd (hl h) (by simp [hlv])

end Slot

end Scratchpad.Run
