import Scratchpad.Proofs.Run.Timers

/-!
# Jobs that are late

In a history of turns a job goes on as soon as its timer goes off. A thread that is busy does not keep to that:
time goes by, and the timer of a job may go off several times before the job goes on. Nor need an interval be
kept to the millisecond: a timer may go off sooner. Histories are made here of moments, at which either a turn
is done or one of these happens. A job whose timer has gone off is woken, so every job is on time or about to
go on.

## Main definitions

* `Moment`: what happens next when jobs may be late.
* `Supervision.lapse`: the world after some moments.
* `Supervision.journey`: the legs that are gone at these moments.
* `Prompt`: every job whose timer has gone off has been woken.

## Main statements

* `lapse_map_turn`, `journey_map_turn`: a history of turns is one of moments.
* `sound_lapse`: all is well after any moments.
* `prompt_lapse`: every job is on time or has been woken, so once the world has settled all are on time.
-/

namespace Scratchpad.Run

open Log Sandbox

/-- What happens next when jobs may be late. -/
inductive Moment where
  | turn (t : Turn)
  /-- Time goes by, and no job goes on meanwhile. -/
  | delay (ms : Nat)
  /-- The timer of a job is going to go off sooner. -/
  | hasten (run time : Nat)
deriving DecidableEq, Repr

namespace Supervision

variable (workshop : Workshop)

/-- Whether the timer of a job has gone off. -/
def isDue (w : Supervision) (run : Nat) : Bool :=
  match w.jobs[run]?.map Job.stage with
  | some (.reading _ _ _ nextFlush) => nextFlush ≤ w.now
  | _ => false

/-- The jobs whose timers have gone off are woken. -/
def wakeDue (w : Supervision) : Supervision :=
  ((List.range w.jobs.length).filter w.isDue).foldl wake w

/-- The timer of a job is set to a time, unless it goes off sooner anyway. -/
def hasten (w : Supervision) (run time : Nat) : Supervision :=
  match w.jobs[run]?.map Job.stage with
  | some (.reading p reader batcher nextFlush) =>
    w.atStage run (.reading p reader batcher (min nextFlush time))
  | _ => w

/-- The world after a moment. -/
def pass (w : Supervision) : Moment → Supervision
  | .turn t => turn workshop w t
  | .delay ms => wakeDue { w with now := w.now + ms }
  | .hasten run time => (w.hasten run time).wakeDue

/-- The world after some moments. -/
def lapse (moments : List Moment) : Supervision := moments.foldl (pass workshop) initial

/-- What a process prints at a moment. -/
def printsAt (process : Nat) (w : Supervision) : Moment → List String
  | .turn t => prints process w t
  | _ => []

/-- What a process has printed at some moments, chunk by chunk. -/
def printedAt (moments : List Moment) (process : Nat) : List String :=
  said (pass workshop) (printsAt process) initial moments

/-- The legs that are gone at a moment. -/
def stridesAt (w : Supervision) : Moment → List Stride
  | .turn t => stridesTurn workshop w t
  | _ => []

/-- The legs that are gone at some moments. -/
def journey (moments : List Moment) : List Stride :=
  said (pass workshop) (stridesAt workshop) initial moments

end Supervision

open Supervision

variable {workshop : Workshop} {printed : Nat → List String} {woken : List Nat} {w : Supervision}
  {run : Nat}

/-! ## Histories of turns -/

theorem said_map_turn {ε : Type} (workshop : Workshop) (say : Supervision → Moment → List ε)
    (w : Supervision) (turns : List Turn) :
    said (pass workshop) say w (turns.map .turn) =
      said (turn workshop) (fun w t => say w (.turn t)) w turns := by
  induction turns generalizing w with
  | nil => rfl
  | cons t turns ih => exact congrArg (say w (.turn t) ++ ·) (ih _)

/-- **A history of turns is one of moments.** -/
theorem lapse_map_turn (workshop : Workshop) (turns : List Turn) :
    lapse workshop (turns.map .turn) = after workshop turns := List.foldl_map

theorem printedAt_map_turn (workshop : Workshop) (turns : List Turn) :
    printedAt workshop (turns.map .turn) = Supervision.printed workshop turns :=
  funext fun _ => said_map_turn ..

theorem journey_map_turn (workshop : Workshop) (turns : List Turn) :
    journey workshop (turns.map .turn) = itinerary workshop turns := said_map_turn ..

/-! ## Who is woken -/

/-- To wake the jobs whose timers have gone off is to change nothing else. -/
theorem wakeDue_spec (w : Supervision) :
    w.wakeDue.slot = w.slot ∧ w.wakeDue.sandbox = w.sandbox ∧ w.wakeDue.jobs = w.jobs ∧
      w.wakeDue.now = w.now ∧
      ∀ r, r ∈ w.wakeDue.ready ↔ r ∈ w.ready ∨ r < w.jobs.length ∧ w.isDue r = true := by
  obtain ⟨hslot, hsandbox, hjobs, hready⟩ := foldl_wake ((List.range w.jobs.length).filter w.isDue) w
  refine ⟨hslot, hsandbox, hjobs, ?_, fun r => ?_⟩
  · exact List.foldlRecOn (motive := fun w' => w'.now = w.now) _ wake rfl
      fun w' hw' run _ => (now_wake w' run).trans hw'
  · rw [wakeDue, hready, List.mem_filter, List.mem_range]

/-- A timer is set anew for a job that reads, or nothing is done. -/
theorem hasten_cases (w : Supervision) (run time : Nat) :
    w.hasten run time = w ∨
      ∃ job p reader batcher nextFlush, w.jobs[run]? = some job ∧
        job.stage = .reading p reader batcher nextFlush ∧
        w.hasten run time = w.atStage run (.reading p reader batcher (min nextFlush time)) := by
  rw [hasten]
  split
  · rename_i p reader batcher nextFlush hs
    obtain ⟨job, hjob, hstage⟩ := Option.map_eq_some_iff.mp hs
    exact .inr ⟨job, p, reader, batcher, nextFlush, hjob, hstage, rfl⟩
  · exact .inl rfl

/-- What has been woken stays woken in a quiet turn. -/
theorem mem_ready_of_isQuiet (workshop : Workshop) {t : Turn} (ht : t.isQuiet = true) {r : Nat}
    (hr : r ∈ w.ready) : r ∈ (turn workshop w t).ready := by
  cases t with
  | settle => cases ht
  | act action =>
    rw [turn]
    cases ha : action.addressee? with
    | some p =>
      cases hq : w.sandbox.controlled? p with
      | none => rwa [perform_of_uncontrolled ha hq]
      | some q =>
        rw [perform_of_controlled ha hq, mem_ready_wake]
        exact .inl hr
    | none =>
      cases action with
      | start source text matchLines environment => cases ht
      | advance ms => cases ht
      | stop => exact mem_ready_wakeActive_of_mem hr
      | release point =>
        obtain ⟨-, -, -, hready⟩ :=
          foldl_wake (w.sandbox.gate point).callers { w with sandbox := w.sandbox.release point }
        exact (hready r).mpr (.inl hr)
      | emit p chunk => cases ha
      | exit p code => cases ha
      | lose p => cases ha
      | _ => exact hr

/-! ## All stays well -/

/-- All stays well when more runs are woken. -/
theorem Sound.wake (h : Sound printed woken w) {woken' : List Nat} (hwoken : ∀ r ∈ woken, r ∈ woken') :
    Sound printed woken' w := by
  obtain ⟨log, hworld, hfits⟩ := h
  exact ⟨log, hworld, fun r job hjob => (hfits r job hjob).wake (hwoken r)⟩

theorem Sound.wakeDue (h : Sound printed w.ready w) : Sound printed w.wakeDue.ready w.wakeDue := by
  obtain ⟨hslot, hsandbox, hjobs, -, hready⟩ := wakeDue_spec w
  refine (h.wake fun r hr => (hready r).mpr (.inl hr)).congr hslot hjobs ?_ ?_ ?_
  · rw [hsandbox]
  · exact fun point => by rw [hsandbox]
  · exact fun point => by rw [hsandbox]; exact id

/-- When the timer of a run goes off is nothing to how the run fits its stage. -/
theorem Sound.hasten (h : Sound printed woken w) (run time : Nat) :
    Sound printed woken (w.hasten run time) := by
  rcases hasten_cases w run time with heq | ⟨job, p, reader, batcher, nextFlush, hjob, hs, heq⟩
  · rwa [heq]
  · rw [heq]
    obtain ⟨v, hsees, hfits⟩ := h.exists_sees hjob woken fun r _ hmem => hmem
    rw [hs] at hfits
    exact (hsees.atStage _).sound hfits

theorem ready_hasten (w : Supervision) (run time : Nat) : (w.hasten run time).ready = w.ready := by
  rcases hasten_cases w run time with heq | ⟨_, _, _, _, _, _, _, heq⟩ <;> rw [heq]
  rfl

/-- **Every moment keeps all well.** -/
theorem Sound.pass (h : Sound printed w.ready w) (m : Moment) :
    Sound (fun p => printed p ++ printsAt p w m) (Supervision.pass workshop w m).ready
      (Supervision.pass workshop w m) := by
  cases m with
  | turn t => exact h.turn t
  | delay ms =>
    have hlater : Sound printed w.ready { w with now := w.now + ms } :=
      h.congr rfl rfl rfl (fun _ => rfl) fun _ => id
    simp only [printsAt, List.append_nil]
    exact hlater.wakeDue
  | hasten run time =>
    have hset : Sound printed (w.hasten run time).ready (w.hasten run time) := by
      rw [ready_hasten]
      exact h.hasten run time
    simp only [printsAt, List.append_nil]
    exact hset.wakeDue

/-- **All is well after any moments.** -/
theorem sound_lapse (workshop : Workshop) (moments : List Moment) :
    Sound (printedAt workshop moments) (lapse workshop moments).ready (lapse workshop moments) := by
  induction moments using List.reverseRecOn with
  | nil => exact sound_initial
  | append_singleton moments m ih =>
    have hprinted : printedAt workshop (moments ++ [m]) = fun p =>
        printedAt workshop moments p ++ printsAt p (lapse workshop moments) m :=
      funext fun p => said_append_singleton ..
    have hlapse : lapse workshop (moments ++ [m]) = pass workshop (lapse workshop moments) m := by
      simp [lapse]
    rw [hprinted, hlapse]
    exact ih.pass m

/-! ## On time or woken -/

/-- Every job whose timer has gone off has been woken. -/
def Prompt (woken : List Nat) (w : Supervision) : Prop :=
  ∀ (run : Nat) (job : Job), w.jobs[run]? = some job → run ∈ woken ∨ job.IsOnTime w.now

namespace Prompt

theorem of_timely (h : Timely w) (woken : List Nat) : Prompt woken w :=
  fun run job hjob => .inr (h run job hjob)

/-- Once the jobs that have been woken have gone on, every job is on time. -/
theorem foldl_resume (hpos : 0 < workshop.settings.flushInterval) (h : Prompt woken w) :
    Timely (woken.foldl (resume workshop) w) := by
  induction woken generalizing w with
  | nil => exact fun run job hjob => (h run job hjob).resolve_left (by simp)
  | cons run woken ih =>
    apply ih
    intro r job hjob
    by_cases hr : r ∈ woken
    · exact .inl hr
    · right
      refine isOnTime_resume hpos (fun job' hne hjob' => ?_) hjob
      exact (h r job' hjob').resolve_left fun hmem => (List.mem_cons.mp hmem).elim hne hr

theorem settle (hpos : 0 < workshop.settings.flushInterval) (h : Prompt w.ready w) :
    Timely (Supervision.settle workshop w) :=
  foldl_resume (w := { w with ready := [] }) hpos h

/-- Whatever the timers show, the jobs that are due are woken. -/
theorem wakeDue (w : Supervision) : Prompt w.wakeDue.ready w.wakeDue := by
  obtain ⟨-, -, hjobs, hnow, hready⟩ := wakeDue_spec w
  intro run job hjob
  rw [hjobs] at hjob
  rw [hready, hnow]
  cases hs : job.stage with
  | reading p reader batcher nextFlush =>
    by_cases hdue : nextFlush ≤ w.now
    · have hlt : run < w.jobs.length := (List.getElem?_eq_some_iff.mp hjob).1
      exact .inl (.inr ⟨hlt, by simp [isDue, hjob, hs, hdue]⟩)
    · right
      intro p' reader' batcher' nextFlush' hstage
      rw [hs] at hstage
      obtain ⟨-, -, -, rfl⟩ := Stage.reading.inj hstage
      omega
  | _ =>
    right
    intro p reader batcher nextFlush hstage
    rw [hs] at hstage
    cases hstage

theorem turn (hpos : 0 < workshop.settings.flushInterval) (h : Prompt w.ready w) (t : Turn) :
    Prompt (Supervision.turn workshop w t).ready (Supervision.turn workshop w t) := by
  rcases t.kinds with ht | rfl | ⟨ms, rfl⟩ | ⟨source, text, matchLines, environment, rfl⟩
  · obtain ⟨hjobs, -, -⟩ := quiet_turn workshop ht w
    intro run job hjob
    rw [hjobs] at hjob
    rw [now_of_isQuiet workshop ht]
    exact (h run job hjob).imp_left (mem_ready_of_isQuiet workshop ht)
  · exact of_timely (h.settle hpos) _
  · exact of_timely (Timely.elapse hpos _ ms) _
  · have hnow : (w.start source text matchLines environment).now = w.now := now_wakeActive w
    intro run job hjob
    rw [Supervision.turn, perform, hnow]
    rcases jobs_start_cases source text matchLines environment hjob with hjob | ⟨-, rfl⟩
    · apply (h run job hjob).imp_left
      exact fun hr => List.mem_append_left _ (mem_ready_wakeActive_of_mem hr)
    · right
      rintro p reader batcher nextFlush ⟨⟩

theorem pass (hpos : 0 < workshop.settings.flushInterval) (h : Prompt w.ready w) (m : Moment) :
    Prompt (Supervision.pass workshop w m).ready (Supervision.pass workshop w m) := by
  cases m with
  | turn t => exact h.turn hpos t
  | delay ms => exact wakeDue _
  | hasten run time => exact wakeDue _

end Prompt

/-- **Every job is on time or has been woken**, after any moments. -/
theorem prompt_lapse (hpos : 0 < workshop.settings.flushInterval) (moments : List Moment) :
    Prompt (lapse workshop moments).ready (lapse workshop moments) :=
  List.foldlRecOn (motive := fun w => Prompt w.ready w) moments (pass workshop)
    (by simp [Prompt, initial]) fun _ hw m _ => hw.pass hpos m

end Scratchpad.Run
