import Scratchpad.Proofs.Slot.Move

/-!
# The slot keeps account of its past

The slot has little memory, and all of it agrees: the phase, the active run, the generation, the handles
and the last outcome say the same of what has happened. Its generation counts the starts and the kills, so
no generation is given twice, and a handle is cancelled if and only if its run has been told to have been
killed. Runs that have lost the slot report in vain, so this holds whatever they report and whenever.

## Main definitions

* `Slot.reached`, `Slot.chronicle`: the slot after moves that begin with nobody who watches, and the events
  that are told on the way.
* `Slot.Move.IsHonest`: a run does not report that it was killed.
* `Slot.Remembers`: what the slot knows of the starts and the events.

## Main statements

* `Slot.Remembers.move`: every honest move keeps what the slot knows right.
* `Slot.remembers_reached`: the slot knows what has happened after any honest moves.
* `Slot.exists_setRunning`: a program runs only if the active run has reported that it does.
-/

namespace Scratchpad.Run

open Log

/-- Whether an event tells that a run was killed. -/
def Event.isKill {Name Item : Type} : Event Name Item → Bool
  | .finished _ .killed => true
  | _ => false

namespace Slot

/-- The slot that moves lead to, from one that nothing has happened to and that nobody watches. -/
def reached (moves : List Move) : Slot := moves.foldl move empty

/-- The events that are told on the way, whether anybody listens or not. -/
def chronicle (moves : List Move) : List (Event Nat Entry) := said move told empty moves

@[simp] theorem reached_nil : reached [] = empty := rfl

@[simp] theorem chronicle_nil : chronicle [] = [] := rfl

@[simp] theorem reached_append_singleton (moves : List Move) (m : Move) :
    reached (moves ++ [m]) = (reached moves).move m := by
  simp [reached]

@[simp] theorem chronicle_append_singleton (moves : List Move) (m : Move) :
    chronicle (moves ++ [m]) = chronicle moves ++ (reached moves).told m :=
  said_append_singleton ..

/-- To be watched from the beginning is to have subscribed before anything else. -/
theorem play_eq_reached (moves : List Move) : play moves = reached (.subscribe :: moves) := rfl

/-- A coherent slot is coherent after any moves. -/
theorem Coherent.foldl {s : Slot} (hs : s.Coherent) (moves : List Move) :
    (moves.foldl Slot.move s).Coherent := by
  induction moves generalizing s with
  | nil => exact hs
  | cons m moves ih => exact ih (hs.move m)

theorem coherent_reached (moves : List Move) : (reached moves).Coherent := by
  apply Coherent.foldl
  constructor <;> simp [empty]

/-- A move that is really made: nobody reports of itself to have been killed. Whoever starts or stops runs
tells that of the run that has the slot. -/
def Move.IsHonest : Move → Prop
  | .finish _ outcome => outcome ≠ .killed
  | _ => True

/-! ## What the slot knows -/

/-- What the slot knows of the number of runs that have been started and of the events that have been told. -/
structure Remembers (starts : Nat) (log : List (Event Nat Entry)) (s : Slot) : Prop where
  /-- Nothing goes on if and only if nobody has the slot. -/
  idle_iff : s.phase = .idle ↔ s.active = none
  length_handles : s.handles.length = starts
  /-- Every start and every kill raises the generation by one. -/
  generation_eq : s.generation = starts + log.countP Event.isKill
  /-- Since the active run was started, the generation has not been raised. -/
  own : ∀ run handle, s.active = some run → s.handles[run]? = some handle →
    handle.generation = s.generation
  cancelled_iff : ∀ run, s.isCancelled run = true ↔ .finished run .killed ∈ log
  lastOutcome_iff : s.lastOutcome = none ↔ s.active ≠ none ∨ starts = 0

namespace Remembers

variable {starts : Nat} {log : List (Event Nat Entry)} {s : Slot}

/-- The active run has a handle. -/
theorem exists_handle (hs : s.Coherent) {run : Nat} (ha : s.active = some run) :
    ∃ handle, s.handles[run]? = some handle := by
  have hlatest := hs.latest run ha
  have hlt : run < s.handles.length := by omega
  exact ⟨_, List.getElem?_eq_getElem hlt⟩

theorem killActive (h : Remembers starts log s) (hs : s.Coherent) :
    Remembers starts (log ++ s.toldKill) s.killActive := by
  cases ha : s.active with
  | none =>
    rw [killActive_of_idle ha, toldKill, ha]
    simpa using h
  | some run =>
    obtain ⟨handle, hhandle⟩ := exists_handle hs ha
    have htold : s.toldKill = [.finished run .killed] := by simp [toldKill, ha]
    have hkilled : s.killActive.phase = .idle ∧ s.killActive.generation = s.generation + 1 ∧
        s.killActive.lastOutcome = some .killed := by
      rw [Slot.killActive, ha]
      exact ⟨rfl, rfl, rfl⟩
    obtain ⟨hphase, hgeneration, houtcome⟩ := hkilled
    rw [htold]
    constructor
    case idle_iff => simp [hphase]
    case length_handles => simpa using h.length_handles
    case generation_eq =>
      have hg := h.generation_eq
      simp only [List.countP_append, List.countP_singleton, Event.isKill, if_true]
      omega
    case own => simp
    case cancelled_iff =>
      intro r
      rw [isCancelled_killActive, Bool.or_eq_true, h.cancelled_iff r, List.mem_append]
      apply or_congr_right
      constructor
      · intro hr
        have hrun : run = r := by simpa [ha] using (Bool.and_eq_true_iff.mp hr).2
        simp [hrun]
      · intro hr
        obtain rfl : r = run := by simpa using hr
        simp [hhandle, ha]
    case lastOutcome_iff =>
      have hstarts : starts ≠ 0 := by
        have hlatest := hs.latest run ha
        have hlength := h.length_handles
        omega
      simp [houtcome, hstarts]

/-- A start gives the slot to a run whose generation nobody had before. -/
theorem start (h : Remembers starts log s) (hs : s.Coherent) (source : String) :
    Remembers (starts + 1) (log ++ s.told (.start source)) (s.start source) := by
  have hk := h.killActive hs
  have hlog : (log ++ s.told (.start source)).countP Event.isKill =
      (log ++ s.toldKill).countP Event.isKill := by
    simp [told, Event.isKill]
  constructor
  case idle_iff => simp
  case length_handles =>
    simp only [Slot.start, handles_emit, List.length_append, List.length_singleton]
    rw [hk.length_handles]
  case generation_eq =>
    have hg := hk.generation_eq
    rw [hlog]
    simp only [Slot.start, generation_emit]
    omega
  case own =>
    intro run handle hrun hhandle
    simp only [Slot.start, active_emit, handles_emit, generation_emit, Option.some.injEq] at hrun hhandle ⊢
    subst hrun
    rw [List.getElem?_append_right (by simp)] at hhandle
    obtain rfl : (⟨s.killActive.generation + 1, false⟩ : Handle) = handle := by simpa using hhandle
    rfl
  case cancelled_iff =>
    intro run
    rw [isCancelled_start, hk.cancelled_iff run, told, ← List.append_assoc]
    simp
  case lastOutcome_iff => simp [Slot.start, emit]

/-- What neither starts nor ends a run leaves what the slot knows as it is. -/
theorem of_eq {t : Slot} {events : List (Event Nat Entry)} (h : Remembers starts log s)
    (hphase : t.phase = .idle ↔ t.active = none) (hactive : t.active = s.active)
    (hhandles : t.handles = s.handles) (hgeneration : t.generation = s.generation)
    (houtcome : t.lastOutcome = s.lastOutcome) (hevents : ∀ e ∈ events, e.isKill = false) :
    Remembers starts (log ++ events) t := by
  have hcount : events.countP Event.isKill = 0 :=
    List.countP_eq_zero.mpr fun e he => by simp [hevents e he]
  have hkilled : ∀ run, .finished run .killed ∉ events := fun run hrun => by
    have hfalse := hevents _ hrun
    simp [Event.isKill] at hfalse
  constructor
  case idle_iff => exact hphase
  case length_handles => rw [hhandles, h.length_handles]
  case generation_eq => rw [hgeneration, h.generation_eq, List.countP_append, hcount, Nat.add_zero]
  case own =>
    rw [hactive, hhandles, hgeneration]
    exact h.own
  case cancelled_iff =>
    intro run
    rw [isCancelled, hhandles, ← isCancelled, h.cancelled_iff run, List.mem_append]
    simp [hkilled run]
  case lastOutcome_iff => rw [houtcome, hactive, h.lastOutcome_iff]

/-- A run that ends by itself leaves the slot with how it has ended. -/
theorem finish (h : Remembers starts log s) (hs : s.Coherent) {run : Nat} {outcome : Outcome}
    (honest : outcome ≠ .killed) (ha : s.active = some run) :
    Remembers starts (log ++ [.finished run outcome])
      (emit { s with phase := .idle, active := none, lastOutcome := some outcome }
        (.finished run outcome)) := by
  have hkill : Event.isKill (.finished run outcome : Event Nat Entry) = false := by
    cases outcome with
    | killed => exact absurd rfl honest
    | completed code => rfl
    | failed message => rfl
  constructor
  case idle_iff => simp
  case length_handles => exact h.length_handles
  case generation_eq =>
    have hg := h.generation_eq
    simp only [generation_emit, List.countP_append, List.countP_singleton, hkill]
    simpa using hg
  case own => simp
  case cancelled_iff =>
    intro r
    have hne : (.finished r .killed : Event Nat Entry) ≠ .finished run outcome := by
      intro heq
      injection heq with _ houtcome
      exact honest houtcome.symm
    rw [List.mem_append, List.mem_singleton, or_iff_left hne]
    exact h.cancelled_iff r
  case lastOutcome_iff =>
    have hlatest := hs.latest run ha
    have hlength := h.length_handles
    have hstarts : starts ≠ 0 := by omega
    simp [emit, hstarts]

/-- A move that starts no run keeps what the slot knows right. -/
theorem move_of_source? (h : Remembers starts log s) (hs : s.Coherent) {m : Move} (honest : m.IsHonest)
    (hm : m.source? = none) : Remembers starts (log ++ s.told m) (s.move m) := by
  cases m with
  | start source => cases hm
  | stop => exact h.killActive hs
  | clear => exact h.of_eq h.idle_iff rfl rfl rfl rfl (by simp [told])
  | subscribe => exact h.of_eq h.idle_iff rfl rfl rfl rfl (by simp [told])
  | unsubscribe i => exact h.of_eq h.idle_iff rfl rfl rfl rfl (by simp [told])
  | deliver run entries =>
    rw [hs.move_deliver, told]
    split
    · exact h.of_eq h.idle_iff rfl rfl rfl rfl (by simp [Event.isKill])
    · exact h.of_eq h.idle_iff rfl rfl rfl rfl (by simp)
  | setRunning run =>
    rw [hs.move_setRunning]
    split
    · rename_i ha
      exact h.of_eq (by simp [ha]) rfl rfl rfl rfl (by simp [told])
    · exact h.of_eq h.idle_iff rfl rfl rfl rfl (by simp [told])
  | finish run outcome =>
    rw [hs.move_finish, told]
    split
    · rename_i ha
      exact h.finish hs honest ha
    · exact h.of_eq h.idle_iff rfl rfl rfl rfl (by simp)

/-- **Every honest move keeps what the slot knows right.** -/
theorem move (h : Remembers starts log s) (hs : s.Coherent) {m : Move} (honest : m.IsHonest) :
    Remembers (starts + m.source?.toList.length) (log ++ s.told m) (s.move m) := by
  cases hm : m.source? with
  | none => exact h.move_of_source? hs honest hm
  | some source =>
    obtain rfl := Move.eq_start_of_source? hm
    exact h.start hs source

end Remembers

/-- **The slot knows what has happened** after any honest moves. -/
theorem remembers_reached {moves : List Move} (honest : ∀ m ∈ moves, m.IsHonest) :
    Remembers (moves.filterMap Move.source?).length (chronicle moves) (reached moves) := by
  induction moves using List.reverseRecOn with
  | nil => constructor <;> simp [empty, isCancelled]
  | append_singleton moves m ih =>
    have hlength : ((moves ++ [m]).filterMap Move.source?).length =
        (moves.filterMap Move.source?).length + m.source?.toList.length := by
      cases hm : m.source? <;> simp [hm]
    rw [chronicle_append_singleton, reached_append_singleton, hlength]
    apply (ih fun m' hm' => honest m' (by simp [hm'])).move (coherent_reached moves)
    exact honest m (by simp)

/-! ## Programs that run -/

/-- Only a start gives the slot to a run. -/
theorem Coherent.active_of_move {s : Slot} (hs : s.Coherent) {m : Move} (hm : m.source? = none) {run : Nat}
    (ha : (s.move m).active = some run) : s.active = some run := by
  cases m with
  | start source => cases hm
  | stop =>
    have hnone : (s.move .stop).active = none := active_killActive s
    rw [hnone] at ha
    cases ha
  | clear => exact ha
  | subscribe => exact ha
  | unsubscribe i => exact ha
  | deliver run' entries =>
    rw [hs.move_deliver] at ha
    split at ha <;> exact ha
  | setRunning run' =>
    rw [hs.move_setRunning] at ha
    split at ha <;> exact ha
  | finish run' outcome =>
    rw [hs.move_finish] at ha
    split at ha
    · cases ha
    · exact ha

/-- A program runs after a move if the active run has just reported it, or if it ran before and the move left the
slot with the same run. -/
theorem Coherent.of_phase_move {s : Slot} (hs : s.Coherent) {m : Move}
    (hrunning : (s.move m).phase = .running) :
    (∃ run, m = .setRunning run ∧ s.active = some run ∧ (s.move m).active = some run) ∨
      s.phase = .running ∧ (s.move m).active = s.active := by
  cases m with
  | start source => simp [Slot.move] at hrunning
  | stop =>
    have hstop : s.move .stop = s.killActive := rfl
    rw [hstop] at hrunning ⊢
    cases ha : s.active with
    | none =>
      rw [killActive_of_idle ha] at hrunning
      exact .inr ⟨hrunning, by rw [killActive_of_idle ha, ha]⟩
    | some run =>
      rw [Slot.killActive, ha] at hrunning
      cases hrunning
  | clear => exact .inr ⟨hrunning, rfl⟩
  | subscribe => exact .inr ⟨hrunning, rfl⟩
  | unsubscribe i => exact .inr ⟨hrunning, rfl⟩
  | deliver run entries =>
    rw [hs.move_deliver] at hrunning ⊢
    split at hrunning
    · rename_i hc
      exact .inr ⟨hrunning, by rw [if_pos hc]; rfl⟩
    · rename_i hc
      exact .inr ⟨hrunning, by rw [if_neg hc]⟩
  | setRunning run =>
    by_cases ha : s.active = some run
    · exact .inl ⟨run, rfl, ha, by rw [hs.move_setRunning, if_pos ha]; exact ha⟩
    · rw [hs.move_setRunning, if_neg ha] at hrunning ⊢
      exact .inr ⟨hrunning, rfl⟩
  | finish run outcome =>
    by_cases ha : s.active = some run
    · simp [hs.move_finish, ha] at hrunning
    · rw [hs.move_finish, if_neg ha] at hrunning ⊢
      exact .inr ⟨hrunning, rfl⟩

/-- **A program runs only if the active run has reported that it does**, while it had the slot. -/
theorem exists_setRunning {moves : List Move} (hrunning : (reached moves).phase = .running) :
    ∃ run before after, (reached moves).active = some run ∧
      moves = before ++ .setRunning run :: after ∧ (reached before).active = some run := by
  induction moves using List.reverseRecOn with
  | nil => simp [empty] at hrunning
  | append_singleton moves m ih =>
    rw [reached_append_singleton] at hrunning ⊢
    rcases (coherent_reached moves).of_phase_move hrunning with
      ⟨run, rfl, ha, ha'⟩ | ⟨hphase, hactive⟩
    · exact ⟨run, moves, [], ha', rfl, ha⟩
    · obtain ⟨run, before, after, ha, rfl, hbefore⟩ := ih hphase
      exact ⟨run, before, after ++ [m], hactive.trans ha, by simp, hbefore⟩

end Slot

end Scratchpad.Run
