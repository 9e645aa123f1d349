import Scratchpad.Proofs.Run.Performance
import Scratchpad.Tool.Session

/-!
# Moments of a session

A session lets time go by from one moment to the next. Up to a moment time goes by, then happens what is due,
in the order of time, and then the tool may end. To the supervision this is a sequence of turns, in which
nothing is done but what happens. At every moment something happens or output is delivered, and after a
delivery nothing is left to deliver until more happens. So as many moments as there are happenings, twice,
and one more are enough for everything to happen.

## Main definitions

* `Session.turnsOf`, `Session.turnsTo`: what happenings and the way to a moment are to the supervision.
* `Session.played`: a session after everything up to a moment.
* `Session.Passes`: a session has become another one by turns in which nothing is done but what happens.
* `Session.moments`: how many moments a session may still have.
* `Session.outcomeCode?`: the code of the outcome, once it is known.

## Main statements

* `Session.Passes.passTo`: what a moment preserves.
* `Session.moments_passTo`: every moment leaves fewer moments.
* `Session.exists_passes_passMoments`: the tool has ended after its moments, and nothing is left to happen.
-/

namespace Scratchpad.Tool.Session

open Log Run Supervision

/-! ## Turns of a session -/

/-- The turns in which things happen, one after another. -/
def turnsOf (happenings : List Happening) : List Turn :=
  happenings.flatMap fun h => [.act h.action, .settle]

theorem foldl_act (happenings : List Happening) (s : Session) :
    happenings.foldl (fun s h => s.act h.action) s =
      { s with supervision := (turnsOf happenings).foldl (turn s.workshop) s.supervision } := by
  induction happenings generalizing s with
  | nil => rfl
  | cons h happenings ih =>
    rw [List.foldl_cons, ih]
    rfl

/-- Nothing but the code changes when the tool ends. -/
theorem settled_eq (s : Session) : s.settled = { s with code := s.settled.code } := by
  unfold settled
  split <;> rfl

/-- The turns up to a moment: time goes by, and then happens what is due. -/
def turnsTo (s : Session) (moment : Nat) : List Turn :=
  [.act (.advance (moment - s.supervision.now)), .settle] ++ turnsOf (s.happenings.filter (·.time ≤ moment))

/-- The session after all that happens up to a moment, before the tool may end. -/
def played (s : Session) (moment : Nat) : Session :=
  { s with
    supervision := (s.turnsTo moment).foldl (turn s.workshop) s.supervision
    happenings := s.happenings.filter (moment < ·.time) }

/-- What a moment does if nothing is about to be started again. -/
theorem passTo_eq {s : Session} (hwaiting : s.debouncer.waiting = none) (moment : Nat) :
    s.passTo moment = (s.played moment).settled := by
  let isDue (h : Happening) : Bool := h.time ≤ moment
  let due : Session :=
    (s.happenings.partition isDue).1.foldl (fun s h => s.act h.action)
      { s.act (.advance (moment - s.supervision.now)) with happenings := (s.happenings.partition isDue).2 }
  have hplayed : due = s.played moment := by
    have hlater : s.happenings.filter (not ∘ isDue) = s.happenings.filter (moment < ·.time) := by
      refine List.filter_congr fun h _ => ?_
      rw [Function.comp_apply, ← decide_not]
      exact decide_eq_decide.mpr Nat.not_le
    unfold due
    rw [foldl_act, List.partition_eq_filter_filter, hlater, played, turnsTo, List.foldl_append]
    rfl
  have hpassed : s.passTo moment =
      if (due.settled.debouncer.due? moment).isSome then
        ({ due.settled with debouncer := due.settled.debouncer.settle moment } : Session).rerun
      else due.settled := rfl
  have hdue : ((s.played moment).settled.debouncer.due? moment).isSome = false := by
    rw [settled_eq, Debouncer.due?, played, hwaiting]
    rfl
  rw [hpassed, hplayed, hdue]
  rfl

/-! ## What a moment preserves -/

/-- Nothing is due at a moment if everything comes later. -/
theorem filter_of_later {happenings : List Happening} {moment : Nat}
    (h : ∀ h ∈ happenings, moment < h.time) :
    happenings.filter (·.time ≤ moment) = [] ∧ happenings.filter (moment < ·.time) = happenings := by
  constructor
  · refine List.filter_eq_nil_iff.mpr fun h' hh' => ?_
    simpa using h h' hh'
  · refine List.filter_eq_self.mpr fun h' hh' => ?_
    simpa using h h' hh'

/-- What is due at a moment and what comes later are everything, in order. -/
theorem filter_append_filter {happenings : List Happening}
    (h : happenings.Pairwise fun a b => a.time ≤ b.time) (moment : Nat) :
    happenings.filter (·.time ≤ moment) ++ happenings.filter (moment < ·.time) = happenings := by
  induction happenings with
  | nil => rfl
  | cons first rest ih =>
    obtain ⟨hfirst, hrest⟩ := List.pairwise_cons.mp h
    by_cases hdue : first.time ≤ moment
    · rw [List.filter_cons_of_pos (by simpa using hdue), List.filter_cons_of_neg (by simpa using hdue),
        List.cons_append, ih hrest]
    · have hlate : ∀ h ∈ first :: rest, moment < h.time := by
        intro h hh
        rcases List.mem_cons.mp hh with rfl | hh
        · omega
        · exact Nat.lt_of_lt_of_le (by omega) (hfirst h hh)
      obtain ⟨hnone, hall⟩ := filter_of_later hlate
      rw [hnone, hall, List.nil_append]

/-- A session has become another one by turns in which nothing is done but what was going to happen. -/
structure Passes (s t : Session) (turns : List Turn) : Prop where
  frame : ∃ happenings code, t = { s with
    supervision := turns.foldl (turn s.workshop) s.supervision, happenings := happenings, code := code }
  doings : turns.filterMap Turn.doing? ++ t.happenings.map (·.action) = s.happenings.map (·.action)
  sorted : t.happenings.Pairwise fun a b => a.time ≤ b.time
  done : ∀ h ∈ t.happenings, Turn.doing? (.act h.action) = some h.action
  ready : t.supervision.ready = []

namespace Passes

variable {s t : Session} {turns : List Turn}

theorem refl (hsorted : s.happenings.Pairwise fun a b => a.time ≤ b.time)
    (hdone : ∀ h ∈ s.happenings, Turn.doing? (.act h.action) = some h.action)
    (hready : s.supervision.ready = []) : Passes s s [] :=
  ⟨⟨s.happenings, s.code, rfl⟩, rfl, hsorted, hdone, hready⟩

theorem supervision_eq (h : Passes s t turns) :
    t.supervision = turns.foldl (turn s.workshop) s.supervision := by
  obtain ⟨happenings, code, rfl⟩ := h.frame
  rfl

theorem watch_eq (h : Passes s t turns) : t.watch = s.watch := by
  obtain ⟨happenings, code, rfl⟩ := h.frame
  rfl

theorem debouncer_eq (h : Passes s t turns) : t.debouncer = s.debouncer := by
  obtain ⟨happenings, code, rfl⟩ := h.frame
  rfl

/-- What happens is what is done in its turns. -/
theorem filterMap_turnsOf {happenings : List Happening}
    (h : ∀ h ∈ happenings, Turn.doing? (.act h.action) = some h.action) :
    (turnsOf happenings).filterMap Turn.doing? = happenings.map (·.action) := by
  induction happenings with
  | nil => rfl
  | cons first rest ih =>
    rw [List.forall_mem_cons] at h
    have hcons : turnsOf (first :: rest) = .act first.action :: .settle :: turnsOf rest := rfl
    rw [hcons, List.filterMap_cons_some h.1, List.filterMap_cons_none rfl, ih h.2, List.map_cons]

/-- All jobs have gone on after things have happened. -/
theorem ready_turnsOf {workshop : Workshop} (happenings : List Happening) {w : Supervision}
    (hready : w.ready = []) : ((turnsOf happenings).foldl (turn workshop) w).ready = [] := by
  induction happenings generalizing w with
  | nil => exact hready
  | cons first rest ih => exact ih (ready_settle (turn workshop w (.act first.action)))

theorem settled (h : Passes s t turns) : Passes s t.settled turns := by
  rw [settled_eq]
  refine ⟨?_, h.doings, h.sorted, h.done, h.ready⟩
  obtain ⟨happenings, code, rfl⟩ := h.frame
  exact ⟨_, _, rfl⟩

/-- Everything that happens up to a moment preserves it. -/
theorem played (h : Passes s t turns) (moment : Nat) :
    Passes s (t.played moment) (turns ++ t.turnsTo moment) := by
  have hdue : ∀ h ∈ t.happenings.filter (·.time ≤ moment), Turn.doing? (.act h.action) = some h.action :=
    fun h' hh' => h.done h' (List.mem_of_mem_filter hh')
  constructor
  case frame =>
    obtain ⟨happenings, code, rfl⟩ := h.frame
    refine ⟨happenings.filter (moment < ·.time), code, ?_⟩
    rw [List.foldl_append]
    rfl
  case doings =>
    have hturns : (t.turnsTo moment).filterMap Turn.doing? =
        (t.happenings.filter (·.time ≤ moment)).map (·.action) := by
      rw [turnsTo, List.filterMap_append, filterMap_turnsOf hdue]
      rfl
    rw [List.filterMap_append, hturns, List.append_assoc, Session.played, ← List.map_append,
      filter_append_filter h.sorted]
    exact h.doings
  case sorted => exact h.sorted.filter _
  case done => exact fun h' hh' => h.done h' (List.mem_of_mem_filter hh')
  case ready =>
    rw [Session.played, turnsTo, List.foldl_append]
    exact ready_turnsOf _ (ready_settle _)

/-- **A moment preserves it.** -/
theorem passTo (h : Passes s t turns) (hwaiting : s.debouncer.waiting = none) (moment : Nat) :
    Passes s (t.passTo moment) (turns ++ t.turnsTo moment) := by
  rw [passTo_eq (by rw [h.debouncer_eq, hwaiting])]
  exact (h.played moment).settled

end Passes

/-! ## How many moments there are -/

/-- A world in which all jobs have gone on is left as it is. -/
theorem settle_of_ready {workshop : Workshop} {w : Supervision} (hready : w.ready = []) :
    settle workshop w = w := by
  unfold settle
  rw [hready]
  cases w
  subst hready
  rfl

/-- When the time of its next delivery has come, the only job has delivered everything that it has collected. -/
theorem jobs_elapse_of_due (workshop : Workshop) {w : Supervision} (hjobs : w.jobs.length = 1) {job : Job}
    (hjob : w.jobs[0]? = some job) {p : Nat} {reader : LineReader} {batcher : Batcher Entry} {nextFlush : Nat}
    (hstage : job.stage = .reading p reader batcher nextFlush) {ms : Nat} (hdue : nextFlush ≤ w.now + ms) :
    ∃ next, (elapse workshop w ms).jobs =
      w.jobs.modify 0 fun j => { j with stage := .reading p reader batcher.tick.2 next } := by
  refine ⟨nextTick nextFlush workshop.settings.flushInterval (w.now + ms), ?_⟩
  have hone : (elapse workshop w ms).jobs = (elapseJob workshop w 0 (w.now + ms)).jobs := by
    unfold elapse
    rw [hjobs]
    rfl
  rw [hone, elapseJob, hjob]
  simp only [hstage, if_pos hdue, atStage, jobs_deliverBatch]

/-- **After a delivery nothing is left to deliver**, if there is one job. -/
theorem nextDelivery?_advance {s : Session} (hready : s.supervision.ready = [])
    (hjobs : s.supervision.jobs.length = 1) {moment : Nat} (h : s.nextDelivery? = some moment) :
    (s.act (.advance (moment - s.supervision.now))).nextDelivery? = none := by
  obtain ⟨run, hactive, hrun⟩ := Option.bind_eq_some_iff.mp h
  obtain ⟨job, hjob, hstage⟩ := Option.bind_eq_some_iff.mp hrun
  obtain rfl : run = 0 := by
    have hlt := (List.getElem?_eq_some_iff.mp hjob).1
    omega
  have hadvanced : (s.act (.advance (moment - s.supervision.now))).supervision =
      elapse s.workshop s.supervision (moment - s.supervision.now) := by
    show settle s.workshop (elapse s.workshop (settle s.workshop s.supervision) _) = _
    rw [settle_of_ready hready, settle_of_ready]
    rw [ready_elapse, hready]
  cases hs : job.stage with
  | reading p reader batcher nextFlush =>
    rw [hs] at hstage
    obtain ⟨-, rfl⟩ : batcher.queue ≠ [] ∧ nextFlush = moment := by simpa using hstage
    have hdue : nextFlush ≤ s.supervision.now + (nextFlush - s.supervision.now) := by omega
    obtain ⟨next, hdelivered⟩ := jobs_elapse_of_due s.workshop hjobs hjob hs hdue
    unfold nextDelivery?
    rw [hadvanced, hdelivered, Option.bind_eq_none_iff]
    intro r _
    rw [List.getElem?_modify]
    by_cases hr : 0 = r
    · subst hr
      simp [hjob]
    · have hnone : s.supervision.jobs[r]? = none := List.getElem?_eq_none (by omega)
      rw [hnone]
      rfl
  | _ =>
    rw [hs] at hstage
    cases hstage

/-- How many moments a session may still have: at each of them something happens, or there is something to
deliver first. -/
def moments (s : Session) : Nat := 2 * s.happenings.length + if s.nextDelivery?.isSome then 1 else 0

/-- **Every moment leaves fewer moments.** -/
theorem moments_passTo {s : Session} (hwaiting : s.debouncer.waiting = none)
    (hready : s.supervision.ready = []) (hjobs : s.supervision.jobs.length = 1) {moment : Nat}
    (h : s.nextMoment? = some moment) : (s.passTo moment).moments < s.moments := by
  have hpassed : (s.passTo moment).moments = (s.played moment).moments := by
    rw [passTo_eq hwaiting, settled_eq]
    rfl
  have hlater : (s.played moment).happenings = s.happenings.filter (moment < ·.time) := rfl
  rw [hpassed, moments, hlater, moments]
  by_cases hdue : ∃ h ∈ s.happenings, ¬ (moment < h.time)
  · -- something is due
    have hlength : (s.happenings.filter (moment < ·.time)).length < s.happenings.length := by
      rw [List.length_filter_lt_length_iff_exists]
      obtain ⟨h, hh, htime⟩ := hdue
      exact ⟨h, hh, by simpa using htime⟩
    have hone : ∀ p : Prop, [Decidable p] → (if p then 1 else 0) ≤ 1 := fun p _ => by split <;> omega
    have hbound := hone ((s.played moment).nextDelivery?.isSome = true)
    omega
  · -- nothing is due
    simp only [not_exists, not_and, not_not] at hdue
    have hnext : s.nextDelivery? = some moment := by
      have hmem := List.min?_mem h
      rw [hwaiting] at hmem
      simp only [Option.map_none, Option.toList_none, List.append_nil, List.mem_append, List.mem_map,
        Option.mem_toList] at hmem
      rcases hmem with ⟨h', hh', rfl⟩ | hmem
      · exact absurd (hdue h' hh') (Nat.lt_irrefl _)
      · exact hmem
    obtain ⟨hnone, hall⟩ := filter_of_later hdue
    have hempty : (s.played moment).nextDelivery? = none := by
      have hturns : s.turnsTo moment = [.act (.advance (moment - s.supervision.now)), .settle] := by
        rw [turnsTo, hnone]
        rfl
      have hplayed : (s.played moment).nextDelivery? =
          (s.act (.advance (moment - s.supervision.now))).nextDelivery? := by
        rw [played, hturns]
        rfl
      rw [hplayed]
      exact nextDelivery?_advance hready hjobs hnext
    rw [hall, hempty, hnext]
    simp

/-! ## All moments -/

/-- The code with which a single run ends the tool, if the run has ended. -/
def outcomeCode? (s : Session) : Option UInt8 := s.firstOutcome?.map fun o => codeByte o.exitCode

theorem outcomeCode?_settled (s : Session) : s.settled.outcomeCode? = s.outcomeCode? := by
  rw [settled_eq]
  rfl

theorem code_settled {s : Session} (hwatch : s.watch = none) (hcode : s.code = none) :
    s.settled.code = s.outcomeCode? := by
  unfold settled
  rw [hwatch, hcode]
  rfl

/-- No time goes by when the tool has ended. -/
theorem passMoments_of_code {s : Session} {code : UInt8} (h : s.code = some code) (until? : Option Nat)
    (fuel : Nat) : passMoments until? fuel s = s := by
  cases fuel with
  | zero => rfl
  | succ fuel =>
    rw [passMoments, h]

/-- **In the end everything has happened**, and the tool has ended as the run has. This needs a run that goes on
for as long as more happens and has then ended, and moments enough. -/
theorem exists_passes_passMoments {s : Session} (hwatch : s.watch = none)
    (hwaiting : s.debouncer.waiting = none)
    (hjobs : ∀ t turns, Passes s t turns → t.supervision.jobs.length = 1)
    (hends : ∀ t turns, Passes s t turns → (t.outcomeCode? = none ↔ t.happenings ≠ [])) (fuel : Nat)
    {t : Session} {turns : List Turn} (h : Passes s t turns) (hcode : t.code = t.outcomeCode?)
    (hfuel : t.moments ≤ fuel) :
    ∃ turns', Passes s (passMoments none fuel t) turns' ∧ (passMoments none fuel t).happenings = [] ∧
      (passMoments none fuel t).code = (passMoments none fuel t).outcomeCode? := by
  induction fuel generalizing t turns with
  | zero =>
    have hnone : t.happenings = [] := by
      rw [moments] at hfuel
      exact List.length_eq_zero_iff.mp (by omega)
    exact ⟨turns, h, hnone, hcode⟩
  | succ fuel ih =>
    by_cases hnone : t.happenings = []
    · obtain ⟨code, hsome⟩ : ∃ code, t.code = some code := by
        rw [hcode, ← Option.ne_none_iff_exists']
        exact fun houtcome => (hends t turns h).mp houtcome hnone
      rw [passMoments_of_code hsome]
      exact ⟨turns, h, hnone, hcode⟩
    · -- something is left to happen
      rw [passMoments]
      have houtcome : t.code = none := by rw [hcode, hends t turns h]; exact hnone
      obtain ⟨moment, hmoment⟩ : ∃ moment, t.nextMoment? = some moment := by
        rw [← Option.ne_none_iff_exists', nextMoment?, ne_eq, List.min?_eq_none_iff]
        simp [hnone]
      have hwaiting' : t.debouncer.waiting = none := by rw [h.debouncer_eq, hwaiting]
      have hfewer := moments_passTo hwaiting' h.ready (hjobs t turns h) hmoment
      rw [houtcome, hmoment]
      simp only [Option.all_none, if_true]
      refine ih (h.passTo hwaiting moment) ?_ (by omega)
      rw [passTo_eq hwaiting', outcomeCode?_settled]
      apply code_settled
      · rw [← hwatch, ← h.watch_eq]
        rfl
      · rw [← houtcome]
        rfl

end Scratchpad.Tool.Session
