import Mathlib.Data.List.DropRight
import Scratchpad.Proofs.Run.View
import Scratchpad.Proofs.Slot.Order

/-!
# What is seen of the slot

The slot is seen in two ways. Whoever watches is told events, and anybody may ask for the output, for the
last outcome, and whether there is an active run. Both ways agree after any moves: what the slot answers
can be read off the events that have been told, and every subscriber has received the events from joining
to leaving, whoever else joins or leaves.

## Main definitions

* `Slot.Note`, `Slot.notes`: the events together with the moments at which the output was cleared.
* `Slot.latest?`: the last event that tells of a start or of an end.
* `Slot.Shows`: what the slot answers, read off the events.
* `Slot.SameBut`: two slots that differ in one subscriber at most.

## Main statements

* `Slot.output_reached`: the output is what has been printed since the last start or clear.
* `Slot.Shows.move`: every move keeps what the slot answers in step with the events.
* `Slot.exists_stay`: a subscriber has received what was told from joining to leaving.
* `Slot.SameBut.move`: a subscriber who leaves is nothing to the others.
* `Slot.observers_agree`: all that is seen of the slot agrees.
-/

namespace Scratchpad.Run

open Log

namespace Slot

/-! ## The output -/

/-- What bears on the output: an event that is told, or the output is cleared. -/
inductive Note where
  | told (event : Event Nat Entry)
  | cleared
deriving DecidableEq, Repr

namespace Note

/-- The event that a note is of. -/
def event? : Note → Option (Event Nat Entry)
  | told event => some event
  | cleared => none

/-- The output begins anew with every run, and when it is cleared. -/
def isReset : Note → Bool
  | told (.started _ _) => true
  | told _ => false
  | cleared => true

/-- The entries that a note brings. -/
def items : Note → List Entry
  | told event => event.items
  | cleared => []

end Note

/-- What is noted of a move. -/
def noted (s : Slot) : Move → List Note
  | .clear => [.cleared]
  | m => (s.told m).map .told

/-- What is noted of moves, one after another. -/
def notes (moves : List Move) : List Note := said move noted empty moves

@[simp] theorem notes_append_singleton (moves : List Move) (m : Move) :
    notes (moves ++ [m]) = notes moves ++ (reached moves).noted m :=
  said_append_singleton ..

/-- The notes are those of the events, and of the moments at which the output was cleared. -/
theorem filterMap_event?_notes (moves : List Move) :
    (notes moves).filterMap Note.event? = chronicle moves := by
  induction moves using List.reverseRecOn with
  | nil => rfl
  | append_singleton moves m ih =>
    have hnoted : ((reached moves).noted m).filterMap Note.event? = (reached moves).told m := by
      cases m <;> simp [noted, told, Note.event?, List.filterMap_map, Function.comp_def]
    rw [notes_append_singleton, chronicle_append_singleton, List.filterMap_append, ih, hnoted]

/-- The notes since the output began anew. -/
def recent (log : List Note) : List Note := log.rtakeWhile fun n => !n.isReset

theorem recent_append_of_isReset (log more : List Note) {n : Note} (hn : n.isReset = true) :
    recent (log ++ (more ++ [n])) = [] := by
  rw [recent, ← List.append_assoc]
  exact List.rtakeWhile_concat_neg _ _ _ (by simp [hn])

theorem recent_append_singleton (log : List Note) {n : Note} (hn : n.isReset = false) :
    recent (log ++ [n]) = recent log ++ [n] :=
  List.rtakeWhile_concat_pos _ _ _ (by simp [hn])

/-- **The output is what has been printed since the last start or clear**, whichever came later. -/
theorem output_reached (moves : List Move) :
    (reached moves).output = (recent (notes moves)).flatMap Note.items := by
  induction moves using List.reverseRecOn with
  | nil => rfl
  | append_singleton moves m ih =>
    have hs := coherent_reached moves
    rw [notes_append_singleton, reached_append_singleton]
    generalize reached moves = s at ih hs ⊢
    cases m with
    | start source =>
      have hnoted : s.noted (.start source) =
          s.toldKill.map .told ++ [.told (.started s.handles.length source)] := by
        simp [noted, told]
      rw [hnoted, recent_append_of_isReset _ _ rfl]
      rfl
    | clear =>
      have hrecent := recent_append_of_isReset (notes moves) [] (n := .cleared) rfl
      rw [List.nil_append] at hrecent
      rw [noted, hrecent]
      rfl
    | stop =>
      change s.killActive.output = _
      cases ha : s.active with
      | none => simpa [killActive, noted, told, toldKill, ha] using ih
      | some run =>
        have hnoted : s.noted .stop = [.told (.finished run .killed)] := by
          simp [noted, told, toldKill, ha]
        rw [hnoted, recent_append_singleton _ rfl, killActive, ha]
        simpa [emit, Note.items, Event.items] using ih
    | subscribe =>
      rw [show s.noted .subscribe = [] from rfl, List.append_nil]
      exact ih
    | unsubscribe i =>
      rw [show s.noted (.unsubscribe i) = [] from rfl, List.append_nil]
      exact ih
    | deliver run entries =>
      have hnoted : s.noted (.deliver run entries) = (s.told (.deliver run entries)).map .told := rfl
      rw [hs.move_deliver, hnoted, told]
      split
      · rw [List.map_singleton, recent_append_singleton _ rfl]
        simp [emit, ih, Note.items, Event.items]
      · simpa using ih
    | setRunning run =>
      rw [hs.move_setRunning, show s.noted (.setRunning run) = [] from rfl, List.append_nil]
      split <;> exact ih
    | finish run outcome =>
      have hnoted : s.noted (.finish run outcome) = (s.told (.finish run outcome)).map .told := rfl
      rw [hs.move_finish, hnoted, told]
      split
      · rw [List.map_singleton, recent_append_singleton _ rfl]
        simpa [emit, Note.items, Event.items] using ih
      · simpa using ih

/-! ## The last outcome -/

end Slot

/-- Whether an event tells of a start or of an end. -/
def Event.isBoundary {Name Item : Type} : Event Name Item → Bool
  | .output _ _ => false
  | _ => true

namespace Slot

/-- The last event that tells of a start or of an end. -/
def latest? (log : List (Event Nat Entry)) : Option (Event Nat Entry) :=
  log.reverse.find? Event.isBoundary

theorem latest?_append (log more : List (Event Nat Entry)) :
    latest? (log ++ more) = (latest? more).or (latest? log) := by
  rw [latest?, List.reverse_append, List.find?_append]
  rfl

/-- No start and no end comes behind the last one. -/
theorem latest?_eq_some_iff {log : List (Event Nat Entry)} {e : Event Nat Entry} :
    latest? log = some e ↔ e.isBoundary = true ∧ ∃ before after, log = before ++ e :: after ∧
      ∀ e' ∈ after, e'.isBoundary = false := by
  rw [latest?, List.find?_eq_some_iff_append]
  apply and_congr_right
  intro _
  constructor
  · rintro ⟨after, before, hlog, hafter⟩
    refine ⟨before.reverse, after.reverse, ?_, ?_⟩
    · simpa using congrArg List.reverse hlog
    · intro e' he'
      simpa using hafter e' (List.mem_reverse.mp he')
  · rintro ⟨before, after, rfl, hafter⟩
    refine ⟨after.reverse, before.reverse, by simp, ?_⟩
    intro e' he'
    simpa using hafter e' (List.mem_reverse.mp he')

/-- What the slot answers, read off the events that have been told. -/
structure Shows (log : List (Event Nat Entry)) (s : Slot) : Prop where
  active : ∀ run, s.active = some run →
    s.phase ≠ .idle ∧ s.lastOutcome = none ∧ ∃ source, latest? log = some (.started run source)
  idle : s.active = none → s.phase = .idle ∧
    (latest? log = none ∧ s.lastOutcome = none ∨
      ∃ run outcome, latest? log = some (.finished run outcome) ∧ s.lastOutcome = some outcome)

namespace Shows

variable {log : List (Event Nat Entry)} {s : Slot}

/-- Events that tell of no start and of no end are nothing to what the slot answers. -/
theorem of_eq {t : Slot} {events : List (Event Nat Entry)} (h : Shows log s)
    (hactive : t.active = s.active) (hphase : t.phase = s.phase)
    (houtcome : t.lastOutcome = s.lastOutcome) (hevents : latest? events = none) :
    Shows (log ++ events) t := by
  have hlatest : latest? (log ++ events) = latest? log := by
    rw [latest?_append, hevents, Option.none_or]
  constructor
  · rw [hlatest, hactive, hphase, houtcome]
    exact h.active
  · rw [hlatest, hactive, hphase, houtcome]
    exact h.idle

/-- The end of a run is answered once it has been told. -/
theorem of_finished {t : Slot} {run : Nat} {outcome : Outcome} (hactive : t.active = none)
    (hphase : t.phase = .idle) (houtcome : t.lastOutcome = some outcome) :
    Shows (log ++ [.finished run outcome]) t := by
  constructor
  · intro r hr
    rw [hactive] at hr
    cases hr
  · intro _
    refine ⟨hphase, .inr ⟨run, outcome, ?_, houtcome⟩⟩
    rw [latest?_append]
    rfl

theorem killActive (h : Shows log s) : Shows (log ++ s.toldKill) s.killActive := by
  cases ha : s.active with
  | none =>
    rw [killActive_of_idle ha, toldKill, ha]
    exact h.of_eq rfl rfl rfl rfl
  | some run =>
    have htold : s.toldKill = [.finished run .killed] := by simp [toldKill, ha]
    rw [htold, Slot.killActive, ha]
    exact of_finished rfl rfl rfl

/-- **Every move keeps what the slot answers in step with the events.** -/
theorem move (h : Shows log s) (hs : s.Coherent) (m : Move) : Shows (log ++ s.told m) (s.move m) := by
  cases m with
  | start source =>
    have hlatest : latest? (log ++ s.told (.start source)) =
        some (.started s.handles.length source) := by
      rw [told, ← List.append_assoc, latest?_append]
      rfl
    constructor
    · intro run hrun
      obtain rfl : s.handles.length = run := by simpa [Slot.move] using hrun
      exact ⟨by simp [Slot.move], rfl, source, hlatest⟩
    · intro hnone
      simp [Slot.move] at hnone
  | stop => exact h.killActive
  | clear => exact h.of_eq rfl rfl rfl rfl
  | subscribe => exact h.of_eq rfl rfl rfl rfl
  | unsubscribe i => exact h.of_eq rfl rfl rfl rfl
  | deliver run entries =>
    rw [hs.move_deliver, told]
    split <;> exact h.of_eq rfl rfl rfl rfl
  | setRunning run =>
    rw [hs.move_setRunning]
    split
    · rename_i ha
      obtain ⟨-, houtcome, source, hlatest⟩ := h.active run ha
      constructor
      · intro r hr
        obtain rfl : run = r := Option.some.inj (ha.symm.trans hr)
        refine ⟨by simp, houtcome, source, ?_⟩
        rw [show s.told (.setRunning run) = [] from rfl, List.append_nil]
        exact hlatest
      · intro hnone
        exact absurd (ha.symm.trans hnone) (Option.some_ne_none run)
    · exact h.of_eq rfl rfl rfl rfl
  | finish run outcome =>
    rw [hs.move_finish, told]
    split
    · exact of_finished rfl rfl rfl
    · exact h.of_eq rfl rfl rfl rfl

/-- An outcome is the last one if and only if no start follows the end that told it. -/
theorem lastOutcome_iff (h : Shows log s) {outcome : Outcome} :
    s.lastOutcome = some outcome ↔ ∃ run, latest? log = some (.finished run outcome) := by
  cases ha : s.active with
  | none =>
    obtain ⟨-, ⟨hlatest, houtcome⟩ | ⟨run, outcome', hlatest, houtcome⟩⟩ := h.idle ha
    · simp [hlatest, houtcome]
    · simp [hlatest, houtcome, eq_comm]
  | some run =>
    obtain ⟨-, houtcome, source, hlatest⟩ := h.active run ha
    simp [hlatest, houtcome]

/-- There is an active run if and only if no end follows the last start. -/
theorem isRunning_iff (h : Shows log s) :
    s.isRunning = true ↔ ∃ run source, latest? log = some (.started run source) := by
  rw [isRunning, bne_iff_ne]
  cases ha : s.active with
  | none =>
    obtain ⟨hphase, ⟨hlatest, -⟩ | ⟨run, outcome, hlatest, -⟩⟩ := h.idle ha
    · simp [hphase, hlatest]
    · simp [hphase, hlatest]
  | some run =>
    obtain ⟨hphase, -, source, hlatest⟩ := h.active run ha
    simp [hphase, hlatest]

end Shows

theorem shows_reached (moves : List Move) : Shows (chronicle moves) (reached moves) := by
  induction moves using List.reverseRecOn with
  | nil => exact ⟨nofun, fun _ => ⟨rfl, .inl ⟨rfl, rfl⟩⟩⟩
  | append_singleton moves m ih =>
    rw [chronicle_append_singleton, reached_append_singleton]
    exact ih.move (coherent_reached moves) m

/-! ## What subscribers receive -/

/-- What a move makes of a subscriber: whoever listens is told, unless the move makes the subscriber leave. -/
theorem Coherent.getElem?_subscribers_move {s : Slot} (hs : s.Coherent) (m : Move) (i : Nat) :
    (s.move m).subscribers[i]? =
      if m = .subscribe ∧ i = s.subscribers.length then some ⟨true, []⟩
      else s.subscribers[i]?.map fun u =>
        { hear (s.told m) u with isListening := u.isListening && m != .unsubscribe i } := by
  by_cases hsub : m = .subscribe
  · subst hsub
    simp only [Slot.move, Slot.subscribe, List.getElem?_append, List.getElem?_singleton, true_and]
    by_cases hi : i < s.subscribers.length
    · have hstays : (Move.subscribe != .unsubscribe i) = true := by simp
      rw [if_pos hi, if_neg (Nat.ne_of_lt hi), List.getElem?_eq_getElem hi, hstays]
      simp [told]
    · by_cases hlast : i = s.subscribers.length
      · simp [hlast]
      · have hsub : i - s.subscribers.length ≠ 0 := by omega
        rw [if_neg hi, if_neg hsub, if_neg hlast, List.getElem?_eq_none (Nat.le_of_not_lt hi)]
        rfl
  rw [if_neg fun h => hsub h.1]
  by_cases hunsub : ∃ j, m = .unsubscribe j
  · obtain ⟨j, rfl⟩ := hunsub
    simp only [Slot.move, Slot.unsubscribe, List.getElem?_modify, told, hear_nil]
    apply Option.map_congr
    intro u hu
    by_cases hj : j = i
    · simp [hj]
    · have hstays : (Move.unsubscribe j != .unsubscribe i) = true := by simpa using hj
      simp [hj, hstays]
  · rw [hs.subscribers_move hsub fun j hj => hunsub ⟨j, hj⟩, List.getElem?_map]
    apply Option.map_congr
    intro u hu
    have hstays : (m != .unsubscribe i) = true := by
      simpa using fun hi => hunsub ⟨i, hi⟩
    rw [hstays, Bool.and_true, ← isListening_hear (s.told m) u]

/-- Subscribers are added one by one, and none is ever removed. -/
theorem Coherent.length_subscribers_move {s : Slot} (hs : s.Coherent) (m : Move) :
    (s.move m).subscribers.length = s.subscribers.length + [m].count .subscribe := by
  by_cases hsub : m = .subscribe
  · simp [hsub, Slot.move, Slot.subscribe]
  have hcount : [m].count .subscribe = 0 := List.count_eq_zero.mpr (by simpa using Ne.symm hsub)
  rw [hcount]
  by_cases hunsub : ∃ i, m = .unsubscribe i
  · obtain ⟨i, rfl⟩ := hunsub
    simp [Slot.move, Slot.unsubscribe]
  · rw [hs.subscribers_move hsub fun i hi => hunsub ⟨i, hi⟩]
    simp

theorem length_subscribers_reached (moves : List Move) :
    (reached moves).subscribers.length = moves.count .subscribe := by
  induction moves using List.reverseRecOn with
  | nil => rfl
  | append_singleton moves m ih =>
    rw [reached_append_singleton, (coherent_reached moves).length_subscribers_move, ih, List.count_append]

/-- **A subscriber has received what was told from joining to leaving**, or until now. -/
theorem exists_stay (moves : List Move) {i : Nat} {u : Subscriber}
    (hu : (reached moves).subscribers[i]? = some u) :
    ∃ earlier stay later, moves = earlier ++ .subscribe :: stay ++ later ∧
      (reached earlier).subscribers.length = i ∧ .unsubscribe i ∉ stay ∧
      (if u.isListening then later = [] else ∃ rest, later = .unsubscribe i :: rest) ∧
      chronicle (earlier ++ .subscribe :: stay) = chronicle earlier ++ u.received := by
  induction moves using List.reverseRecOn generalizing u with
  | nil => simp [empty] at hu
  | append_singleton moves m ih =>
    rw [reached_append_singleton, (coherent_reached moves).getElem?_subscribers_move] at hu
    split at hu
    · -- the subscriber has just joined
      rename_i hnew
      obtain ⟨rfl, rfl⟩ := hnew
      obtain rfl : (⟨true, []⟩ : Subscriber) = u := Option.some.inj hu
      exact ⟨moves, [], [], by simp, rfl, by simp, by simp, by simp [told]⟩
    · obtain ⟨v, hv, rfl⟩ := Option.map_eq_some_iff.mp hu
      obtain ⟨earlier, stay, later, rfl, hi, hstay, hlater, hchronicle⟩ := ih hv
      cases hl : v.isListening with
      | false =>
        rw [hl, if_neg Bool.false_ne_true] at hlater
        obtain ⟨rest, rfl⟩ := hlater
        refine ⟨earlier, stay, .unsubscribe i :: rest ++ [m], by simp, hi, hstay, ?_, ?_⟩
        · simp
        · simpa [hear, hl] using hchronicle
      | true =>
        rw [hl, if_pos rfl] at hlater
        subst hlater
        rw [List.append_nil] at hv ⊢
        by_cases hleave : m = .unsubscribe i
        · -- the subscriber leaves
          subst hleave
          refine ⟨earlier, stay, [.unsubscribe i], rfl, hi, hstay, by simp, ?_⟩
          simpa [hear, hl, told] using hchronicle
        · refine ⟨earlier, stay ++ [m], [], by simp, hi, ?_, ?_, ?_⟩
          · simp [hstay, Ne.symm hleave]
          · simp [hleave]
          · have htold := chronicle_append_singleton (earlier ++ .subscribe :: stay) m
            rw [List.append_assoc, List.cons_append] at htold
            rw [htold, hchronicle, List.append_assoc, hear, if_pos hl]

/-! ## Subscribers do not depend on each other -/

/-- The slot without those who watch it. -/
def unwatched (s : Slot) : Slot := { s with subscribers := [] }

/-- What a move does, it does whoever watches. -/
theorem unwatched_move (s : Slot) (m : Move) : (s.move m).unwatched = (s.unwatched.move m).unwatched := by
  have hhandles : s.unwatched.handles = s.handles := rfl
  have hcurrent : s.unwatched.isCurrent = s.isCurrent := rfl
  have hkill : s.killActive.unwatched = s.unwatched.killActive.unwatched := by
    have hactive : s.unwatched.active = s.active := rfl
    rw [killActive, killActive, hactive]
    cases s.active <;> rfl
  cases m with
  | start source =>
    have hstart : ∀ t : Slot, (t.start source).unwatched =
        { t.killActive.unwatched with
          generation := t.killActive.unwatched.generation + 1
          phase := .starting
          active := some t.killActive.unwatched.handles.length
          handles := t.killActive.unwatched.handles ++ [⟨t.killActive.unwatched.generation + 1, false⟩]
          output := []
          lastOutcome := none } := fun t => rfl
    rw [Slot.move, Slot.move, hstart, hstart, hkill]
  | stop => exact hkill
  | clear => rfl
  | subscribe => rfl
  | unsubscribe i => rfl
  | deliver run entries =>
    rw [Slot.move, Slot.move, hhandles]
    cases s.handles[run]? with
    | none => rfl
    | some h =>
      simp only [Option.elim_some, deliver, hcurrent]
      split <;> rfl
  | setRunning run =>
    rw [Slot.move, Slot.move, hhandles]
    cases s.handles[run]? with
    | none => rfl
    | some h =>
      simp only [Option.elim_some, setRunning, hcurrent]
      split <;> rfl
  | finish run outcome =>
    rw [Slot.move, Slot.move, hhandles]
    cases s.handles[run]? with
    | none => rfl
    | some h =>
      simp only [Option.elim_some, finish, hcurrent]
      split <;> rfl

/-- What a move tells, it tells whoever watches. -/
theorem told_unwatched (s : Slot) (m : Move) : s.unwatched.told m = s.told m := by
  cases m <;> rfl

/-- Two slots that differ in one subscriber at most. -/
structure SameBut (i : Nat) (s t : Slot) : Prop where
  unwatched : s.unwatched = t.unwatched
  length : s.subscribers.length = t.subscribers.length
  others : ∀ j, j ≠ i → s.subscribers[j]? = t.subscribers[j]?

namespace SameBut

variable {i : Nat} {s t : Slot}

theorem told_eq (h : SameBut i s t) (m : Move) : s.told m = t.told m := by
  rw [← told_unwatched, h.unwatched, told_unwatched]

/-- **A move keeps slots the same that differ in one subscriber at most.** -/
theorem move (h : SameBut i s t) (hs : s.Coherent) (ht : t.Coherent) (m : Move) :
    SameBut i (s.move m) (t.move m) := by
  constructor
  case unwatched => rw [unwatched_move, h.unwatched, ← unwatched_move]
  case length => rw [hs.length_subscribers_move, ht.length_subscribers_move, h.length]
  case others =>
    intro j hj
    rw [hs.getElem?_subscribers_move, ht.getElem?_subscribers_move, h.told_eq, h.length, h.others j hj]

/-- Slots that differ in one subscriber at most do so after any moves. -/
theorem foldl (h : SameBut i s t) (hs : s.Coherent) (ht : t.Coherent) (moves : List Move) :
    SameBut i (moves.foldl Slot.move s) (moves.foldl Slot.move t) := by
  induction moves generalizing s t with
  | nil => exact h
  | cons m moves ih => exact ih (h.move hs ht m) (hs.move m) (ht.move m)

end SameBut

/-- Whoever leaves makes a difference to nobody else. -/
theorem sameBut_unsubscribe (s : Slot) (i : Nat) : SameBut i (s.unsubscribe i) s := by
  refine ⟨rfl, by simp [Slot.unsubscribe], ?_⟩
  intro j hj
  simp [Slot.unsubscribe, Ne.symm hj]

/-! ## All that is seen -/

/-- **All that is seen of the slot agrees**, after any moves. The output is what has been printed since the
last start or clear. There is a last outcome if and only if the last start or end that was told is an end,
and an active run if and only if it is a start. Every subscriber has received what was told from joining to
leaving, or until now, and receives the same whether another one leaves or stays. -/
theorem observers_agree (moves : List Move) :
    (reached moves).output = (recent (notes moves)).flatMap Note.items ∧
      (notes moves).filterMap Note.event? = chronicle moves ∧
      (∀ outcome, (reached moves).lastOutcome = some outcome ↔
        ∃ before run after, chronicle moves = before ++ .finished run outcome :: after ∧
          ∀ e ∈ after, e.isBoundary = false) ∧
      ((reached moves).isRunning = true ↔
        ∃ before run source after, chronicle moves = before ++ .started run source :: after ∧
          ∀ e ∈ after, e.isBoundary = false) ∧
      (reached moves).subscribers.length = moves.count .subscribe ∧
      (∀ i u, (reached moves).subscribers[i]? = some u →
        ∃ earlier stay later, moves = earlier ++ .subscribe :: stay ++ later ∧
          (reached earlier).subscribers.length = i ∧ .unsubscribe i ∉ stay ∧
          (if u.isListening then later = [] else ∃ rest, later = .unsubscribe i :: rest) ∧
          chronicle (earlier ++ .subscribe :: stay) = chronicle earlier ++ u.received) ∧
      ∀ before i after, moves = before ++ .unsubscribe i :: after → ∀ j, j ≠ i →
        (reached moves).subscribers[j]? = (reached (before ++ after)).subscribers[j]? := by
  have hshows := shows_reached moves
  refine ⟨output_reached moves, filterMap_event?_notes moves, ?_, ?_, length_subscribers_reached moves,
    fun i u hu => exists_stay moves hu, ?_⟩
  · intro outcome
    rw [hshows.lastOutcome_iff]
    constructor
    · rintro ⟨run, hlatest⟩
      obtain ⟨-, before, after, hlog, hafter⟩ := latest?_eq_some_iff.mp hlatest
      exact ⟨before, run, after, hlog, hafter⟩
    · rintro ⟨before, run, after, hlog, hafter⟩
      exact ⟨run, latest?_eq_some_iff.mpr ⟨rfl, before, after, hlog, hafter⟩⟩
  · rw [hshows.isRunning_iff]
    constructor
    · rintro ⟨run, source, hlatest⟩
      obtain ⟨-, before, after, hlog, hafter⟩ := latest?_eq_some_iff.mp hlatest
      exact ⟨before, run, source, after, hlog, hafter⟩
    · rintro ⟨before, run, source, after, hlog, hafter⟩
      exact ⟨run, source, latest?_eq_some_iff.mpr ⟨rfl, before, after, hlog, hafter⟩⟩
  · rintro before i after rfl j hj
    have hbefore := coherent_reached before
    have hsame := (sameBut_unsubscribe (reached before) i).foldl (hbefore.move (.unsubscribe i)) hbefore after
    have hreached : ∀ more, reached (before ++ more) = more.foldl Slot.move (reached before) :=
      fun more => List.foldl_append
    rw [hreached, hreached]
    exact hsame.others j hj

/-- One of two subscribers leaves while a run prints, and the output is cleared in between. -/
theorem observers_agree_left :
    let entry : Entry := ⟨.log, none, "x"⟩
    let moves : List Move :=
      [.subscribe, .start "a", .subscribe, .setRunning 0, .deliver 0 [entry], .unsubscribe 0, .clear,
        .deliver 0 [entry, entry], .finish 0 (.completed 3)]
    let told : List (Event Nat Entry) :=
      [.output 0 [entry], .output 0 [entry, entry], .finished 0 (.completed 3)]
    (reached moves).output = [entry, entry] ∧
      (reached moves).output = (recent (notes moves)).flatMap Note.items ∧
      (∃ before run after, chronicle moves = before ++ .finished run (.completed 3) :: after ∧
        ∀ e ∈ after, e.isBoundary = false) ∧
      (reached moves).subscribers[0]? = some ⟨false, [.started 0 "a", .output 0 [entry]]⟩ ∧
      (reached moves).subscribers[1]? = some ⟨true, told⟩ ∧
      (∃ earlier stay later, moves = earlier ++ .subscribe :: stay ++ later ∧
        (reached earlier).subscribers.length = 1 ∧ .unsubscribe 1 ∉ stay ∧ later = [] ∧
        chronicle (earlier ++ .subscribe :: stay) = chronicle earlier ++ told) ∧
      (reached moves).subscribers[1]? = (reached (moves.eraseIdx 5)).subscribers[1]? := by
  intro entry moves told
  obtain ⟨houtput, -, houtcome, -, -, hstay, hleave⟩ := observers_agree moves
  have hsubscriber : (reached moves).subscribers[1]? = some ⟨true, told⟩ := by decide
  refine ⟨by decide, houtput, (houtcome (.completed 3)).mp (by decide), by decide, hsubscriber,
    hstay 1 _ hsubscriber, ?_⟩
  exact hleave (moves.take 5) 0 (moves.drop 6) rfl 1 (by decide)

end Slot

end Scratchpad.Run
