import Mathlib.Data.List.Induction
import Scratchpad.Debouncer
import Scratchpad.Proofs.Basic

/-!
# What a debouncer carries out

A debouncer is asked for actions, told to give up, replaced by a new one, and otherwise left alone while time
goes by. It carries out exactly those actions for which it is left alone long enough: an action is carried out
when its delay is over, unless something is asked of the debouncer before that.

## Main definitions

* `Debouncer.Step`: what happens to a debouncer.
* `Debouncer.fired`, `Debouncer.after`, `Debouncer.clock`: what is carried out, what becomes of the debouncer, and
  how long it takes.
* `Debouncer.Survives`: nothing is asked of a debouncer before a time that comes.
* `Debouncer.survivors`: the actions for which it is left alone, in the order in which they were asked for.
* `Debouncer.Tasks`: a debouncer with all tasks that have been started.

## Main statements

* `Debouncer.said_eq`: what is carried out from any state on.
* `Debouncer.isPending_iff`: what waits is the last action that was asked for.
* `Debouncer.Tasks.fired_eq`: one place is enough for all tasks.
* `Debouncer.fires_survivors`: what is carried out, and when.
-/

namespace Scratchpad

namespace Debouncer

variable {α : Type}

/-- What happens to a debouncer. -/
inductive Step (α : Type) where
  /-- An action is asked for. -/
  | schedule (action : α)
  /-- What waits is given up. -/
  | cancel
  /-- The debouncer goes, and a new one with the same delay takes its place. -/
  | replace
  /-- Time goes by. -/
  | advance (duration : Nat)
deriving DecidableEq, Inhabited, Repr

namespace Step

/-- Whether something is asked of the debouncer. -/
def isCall : Step α → Bool
  | advance _ => false
  | _ => true

/-- How much time goes by. -/
def duration : Step α → Nat
  | advance duration => duration
  | _ => 0

/-- What a step does to a debouncer by itself, before the action that is due is carried out. -/
def apply (d : Debouncer α) (now : Nat) : Step α → Debouncer α
  | schedule action => d.schedule now action
  | cancel => d.cancel
  | replace => ofDelay d.delay
  | advance _ => d

end Step

/-- A debouncer and the time behind a step. What is due by then has been carried out. -/
def next (s : Debouncer α × Nat) (step : Step α) : Debouncer α × Nat :=
  ((step.apply s.1 s.2).settle (s.2 + step.duration), s.2 + step.duration)

/-- What is carried out in a step, and when. -/
def firing (s : Debouncer α × Nat) (step : Step α) : List (α × Nat) :=
  ((step.apply s.1 s.2).due? (s.2 + step.duration)).toList

/-- How long some steps take. -/
def clock : List (Step α) → Nat
  | [] => 0
  | step :: steps => step.duration + clock steps

/-- A debouncer and the time after some steps. -/
def after (delay : Nat) (steps : List (Step α)) : Debouncer α × Nat := steps.foldl next (ofDelay delay, 0)

/-- What is carried out in some steps, each action with the time at which it is. -/
def fired (delay : Nat) (steps : List (Step α)) : List (α × Nat) := said next firing (ofDelay delay, 0) steps

/-- In some steps that begin at a time another time comes, and nothing is asked of the debouncer before it. -/
def Survives (due now : Nat) (steps : List (Step α)) : Prop :=
  due ≤ now + clock steps ∧
    ∀ before call behind, steps = before ++ call :: behind → call.isCall → due ≤ now + clock before

/-! ## Being left alone -/

section

variable (due now : Nat) (steps : List (Step α))

@[simp] theorem clock_nil : clock ([] : List (Step α)) = 0 := rfl

@[simp] theorem clock_cons (step : Step α) : clock (step :: steps) = step.duration + clock steps := rfl

@[simp] theorem clock_append (more : List (Step α)) : clock (steps ++ more) = clock steps + clock more := by
  induction steps with
  | nil => simp
  | cons step steps ih => simp [ih, Nat.add_assoc]

@[simp] theorem survives_nil : Survives due now ([] : List (Step α)) ↔ due ≤ now := by
  simp [Survives]

/-- A time that has come already comes in any case. -/
theorem survives_of_le (h : due ≤ now) : Survives due now steps :=
  ⟨Nat.le_add_right_of_le h, fun _ _ _ _ _ => Nat.le_add_right_of_le h⟩

/-- When something is asked of the debouncer, the time has come or it does not come. -/
theorem survives_call {call : Step α} (h : call.isCall) : Survives due now (call :: steps) ↔ due ≤ now :=
  ⟨fun hs => by simpa using hs.2 [] call steps rfl h, survives_of_le due now _⟩

/-- When time goes by, it is later. -/
@[simp] theorem survives_advance (duration : Nat) :
    Survives due now (.advance duration :: steps) ↔ Survives due (now + duration) steps := by
  simp only [Survives, clock_cons, Step.duration, Nat.add_assoc]
  refine and_congr_right fun _ => ⟨fun h before call behind hsplit hcall => ?_, ?_⟩
  · simpa [Step.duration] using h (.advance duration :: before) call behind (by simp [hsplit]) hcall
  · intro h before call behind hsplit hcall
    obtain ⟨rfl, -⟩ | ⟨before, rfl, rfl⟩ := List.cons_eq_append_iff.mp hsplit
    · rw [List.nil_append, List.cons.injEq] at hsplit
      rw [← hsplit.1] at hcall
      cases hcall
    · exact h before call behind rfl hcall

variable {steps} in
/-- When nothing is asked of the debouncer, a time need only come. -/
theorem survives_quiet (h : ∀ step ∈ steps, step.isCall = false) :
    Survives due now steps ↔ due ≤ now + clock steps := by
  refine and_iff_left_of_imp fun _ before call behind hsplit hcall => ?_
  have hquiet := h call (by simp [hsplit])
  rw [hcall] at hquiet
  cases hquiet

/-- Whether nothing is asked of a debouncer before a time that comes. -/
def isSpared : Nat → List (Step α) → Bool
  | now, [] => due ≤ now
  | now, .advance duration :: steps => isSpared (now + duration) steps
  | now, _ :: _ => due ≤ now

theorem isSpared_iff : isSpared due now steps = true ↔ Survives due now steps := by
  fun_induction isSpared due now steps with
  | case1 now => simp
  | case2 now duration steps ih => rw [survives_advance, ih]
  | case3 now call steps hcall =>
    have h : call.isCall := by
      cases call with
      | advance duration => exact absurd rfl (hcall duration)
      | _ => rfl
    simp [survives_call due now steps h]

instance : Decidable (Survives due now steps) := decidable_of_iff _ (isSpared_iff due now steps)

end

/-- The actions for which a debouncer is left alone long enough, each with the time that is its delay after it
was asked for, in the order in which they were asked for. -/
def survivors (delay : Nat) : (now : Nat) → List (Step α) → List (α × Nat)
  | _, [] => []
  | now, .schedule action :: steps =>
    (if Survives (now + delay) now steps then [(action, now + delay)] else []) ++ survivors delay now steps
  | now, step :: steps => survivors delay (now + step.duration) steps

/-- What survives has been asked for, and is due a delay later. -/
theorem exists_of_mem_survivors {delay now : Nat} {steps : List (Step α)} {firing : α × Nat}
    (h : firing ∈ survivors delay now steps) :
    ∃ before action behind, steps = before ++ .schedule action :: behind ∧
      firing = (action, now + clock before + delay) := by
  fun_induction survivors delay now steps with
  | case1 now => cases h
  | case2 now action steps ih =>
    rcases List.mem_append.mp h with h | h
    · refine ⟨[], action, steps, rfl, ?_⟩
      split at h
      · exact List.mem_singleton.mp h
      · cases h
    · obtain ⟨before, other, behind, rfl, rfl⟩ := ih h
      exact ⟨.schedule action :: before, other, behind, rfl, by simp [Step.duration]⟩
  | case3 now step steps _ ih =>
    obtain ⟨before, other, behind, rfl, rfl⟩ := ih h
    exact ⟨step :: before, other, behind, rfl, by simp [Nat.add_assoc]⟩

/-- One action is carried out a whole delay before the next one at least, since that one is asked for when the
first has been carried out. -/
theorem pairwise_survivors (delay now : Nat) (steps : List (Step α)) :
    (survivors delay now steps).Pairwise fun f g => f.2 + delay ≤ g.2 := by
  fun_induction survivors delay now steps with
  | case1 now => exact .nil
  | case2 now action steps ih =>
    refine List.pairwise_append.mpr ⟨by split <;> simp, ih, fun f hf g hg => ?_⟩
    split at hf
    · rename_i hsurvives
      obtain rfl := List.mem_singleton.mp hf
      obtain ⟨before, other, behind, hsplit, rfl⟩ := exists_of_mem_survivors hg
      have hle := hsurvives.2 before _ behind hsplit rfl
      exact Nat.add_le_add_right hle delay
    · cases hf
  | case3 now step steps _ ih => exact ih

/-! ## Carrying out -/

section

variable (d : Debouncer α) (now : Nat)

/-- Behind every step what waits is due later. -/
def IsSettled : Prop := ∀ w ∈ d.waiting, now < w.2

@[simp] theorem delay_apply (step : Step α) : (step.apply d now).delay = d.delay := by cases step <;> rfl

@[simp] theorem delay_settle : (d.settle now).delay = d.delay := by
  rw [settle]
  split <;> rfl

theorem waiting_settle : (d.settle now).waiting = d.waiting.filter (now < ·.2) := by
  obtain ⟨delay, _ | w⟩ := d
  · rfl
  · rcases Nat.lt_or_ge now w.2 with h | h
    · simp [settle, due?, Option.filter_some, h, Nat.not_le.mpr h]
    · simp [settle, due?, Option.filter_some, Nat.not_lt.mpr h, h, cancel]

theorem isSettled_settle : IsSettled (d.settle now) now := by
  intro w hw
  rw [waiting_settle] at hw
  simpa using (Option.mem_filter_iff.mp hw).2

/-- What waits and survives is what is carried out at once, and of what goes on waiting what survives. -/
theorem filter_waiting (steps : List (Step α)) :
    (d.due? now).toList ++ (d.settle now).waiting.toList.filter (fun w => Survives w.2 now steps) =
      d.waiting.toList.filter fun w => Survives w.2 now steps := by
  rw [waiting_settle, due?]
  cases d.waiting with
  | none => rfl
  | some w =>
    rcases Nat.lt_or_ge now w.2 with h | h
    · simp [Option.filter_some, h]
    · simp [Option.filter_some, h, Nat.not_lt.mpr h, survives_of_le w.2 now steps h]

variable {d now}

/-- What waits behind a step has not been due before, so that it is given up for good if anything is asked. -/
theorem IsSettled.filter_call (h : IsSettled d now) {call : Step α} (hcall : call.isCall)
    (steps : List (Step α)) :
    (d.waiting.toList.filter fun w => Survives w.2 now (call :: steps)) = [] := by
  refine List.filter_eq_nil_iff.mpr fun w hw => ?_
  simpa [survives_call w.2 now steps hcall] using h w (Option.mem_toList.mp hw)

/-- **From any state on** what is carried out is what waits, if it survives, and then what survives of all that is
asked for. -/
theorem said_eq (h : IsSettled d now) (steps : List (Step α)) :
    said next firing (d, now) steps =
      d.waiting.toList.filter (fun w => Survives w.2 now steps) ++ survivors d.delay now steps := by
  induction steps generalizing d now with
  | nil =>
    have hnone : (d.waiting.toList.filter fun w => Survives w.2 now ([] : List (Step α))) = [] :=
      List.filter_eq_nil_iff.mpr fun w hw => by simpa using h w (Option.mem_toList.mp hw)
    rw [hnone]
    rfl
  | cons step steps ih =>
    rw [said, next, ih (isSettled_settle _ _), firing, ← List.append_assoc, filter_waiting, delay_settle,
      delay_apply]
    cases step with
    | schedule action =>
      rw [h.filter_call rfl]
      by_cases hsurvives : Survives (now + d.delay) now steps <;>
        simp [survivors, Step.apply, Step.duration, schedule, hsurvives]
    | cancel =>
      rw [h.filter_call rfl]
      rfl
    | replace =>
      rw [h.filter_call rfl]
      rfl
    | advance duration =>
      have hlater : ∀ w ∈ d.waiting.toList,
          decide (Survives w.2 now (.advance duration :: steps)) = decide (Survives w.2 (now + duration) steps) :=
        fun w _ => decide_eq_decide.mpr (survives_advance ..)
      rw [List.filter_congr hlater]
      rfl

end

/-! ## Waiting -/

section

variable (delay : Nat) (steps : List (Step α))

@[simp] theorem after_append_singleton (step : Step α) :
    after delay (steps ++ [step]) = next (after delay steps) step := by
  simp [after]

theorem time_after : (after delay steps).2 = clock steps := by
  induction steps using List.reverseRecOn with
  | nil => rfl
  | append_singleton steps step ih => simp [next, ih]

theorem delay_after : (after delay steps).1.delay = delay := by
  induction steps using List.reverseRecOn with
  | nil => rfl
  | append_singleton steps step ih => simp [next, ih]

/-- With one more step the last action is either the one that this step asks for or the last one before it. -/
theorem exists_last_append_singleton {P : List (Step α) → List (Step α) → Prop} (step : Step α) (action : α) :
    (∃ before behind, steps ++ [step] = before ++ .schedule action :: behind ∧ P before behind) ↔
      (step = .schedule action ∧ P steps []) ∨
        ∃ before behind, steps = before ++ .schedule action :: behind ∧ P before (behind ++ [step]) := by
  constructor
  · rintro ⟨before, behind, hsplit, h⟩
    induction behind using List.reverseRecOn with
    | nil =>
      obtain ⟨rfl, hstep⟩ := List.append_inj' hsplit rfl
      exact .inl ⟨(List.cons.inj hstep).1, h⟩
    | append_singleton behind last _ =>
      rw [← List.cons_append, ← List.append_assoc] at hsplit
      obtain ⟨rfl, hlast⟩ := List.append_inj' hsplit rfl
      obtain rfl := (List.cons.inj hlast).1
      exact .inr ⟨before, behind, rfl, h⟩
  · rintro (⟨rfl, h⟩ | ⟨before, behind, rfl, h⟩)
    · exact ⟨steps, [], rfl, h⟩
    · exact ⟨before, behind ++ [step], by simp, h⟩

/-- What waits is the last action that was asked for, when nothing has been asked since and it is not due. -/
theorem waiting_after (action : α) (due : Nat) :
    (after delay steps).1.waiting = some (action, due) ↔
      ∃ before behind, steps = before ++ .schedule action :: behind ∧
        (∀ step ∈ behind, step.isCall = false) ∧ due = clock before + delay ∧ clock steps < due := by
  induction steps using List.reverseRecOn with
  | nil => simp [after, ofDelay]
  | append_singleton steps step ih =>
    have hnone : (∃ before behind, steps = before ++ .schedule action :: behind ∧
        (∀ step' ∈ behind ++ [step], step'.isCall = false) ∧ due = clock before + delay ∧
          clock (steps ++ [step]) < due) ↔
        step.isCall = false ∧ (after delay steps).1.waiting = some (action, due) ∧
          clock (steps ++ [step]) < due := by
      rw [ih]
      constructor
      · rintro ⟨before, behind, hsplit, hcalls, hdue, hlt⟩
        refine ⟨hcalls step (by simp), ⟨before, behind, hsplit, fun s hs => hcalls s (by simp [hs]), hdue, ?_⟩, hlt⟩
        rw [clock_append] at hlt
        exact Nat.lt_of_le_of_lt (Nat.le_add_right ..) hlt
      · rintro ⟨hcall, ⟨before, behind, hsplit, hcalls, hdue, -⟩, hlt⟩
        refine ⟨before, behind, hsplit, ?_, hdue, hlt⟩
        simpa [or_imp, forall_and, hcall] using hcalls
    have htime : clock steps + step.duration = clock (steps ++ [step]) := by simp
    rw [exists_last_append_singleton (P := fun before behind =>
      (∀ step' ∈ behind, step'.isCall = false) ∧ due = clock before + delay ∧ clock (steps ++ [step]) < due),
      hnone, after_append_singleton, next, waiting_settle, time_after, htime, Option.filter_eq_some_iff,
      decide_eq_true_eq]
    cases step with
    | schedule other => simp [Step.apply, schedule, Step.isCall, delay_after, and_assoc, eq_comm (a := due)]
    | cancel => simp [Step.apply, Debouncer.cancel, Step.isCall]
    | replace => simp [Step.apply, ofDelay, Step.isCall]
    | advance duration => simp [Step.apply, Step.isCall]

/-- What waits is the last action that was asked for, as long as nothing has been asked since and it has not been
carried out. -/
theorem isPending_iff :
    (after delay steps).1.isPending ↔ ∃ before action behind, steps = before ++ .schedule action :: behind ∧
      (∀ step ∈ behind, step.isCall = false) ∧ ¬ Survives (clock before + delay) (clock before) behind := by
  rw [isPending, Option.isSome_iff_exists]
  constructor
  · rintro ⟨⟨action, due⟩, hwaiting⟩
    obtain ⟨before, behind, rfl, hquiet, rfl, hlt⟩ := (waiting_after delay steps action due).mp hwaiting
    refine ⟨before, action, behind, rfl, hquiet, fun hsurvives => ?_⟩
    have hle := (survives_quiet _ _ hquiet).mp hsurvives
    simp only [clock_append, clock_cons, Step.duration] at hlt
    omega
  · rintro ⟨before, action, behind, rfl, hquiet, hsurvives⟩
    refine ⟨(action, clock before + delay), (waiting_after _ _ _ _).mpr ⟨before, behind, rfl, hquiet, rfl, ?_⟩⟩
    rw [survives_quiet _ _ hquiet] at hsurvives
    simp only [clock_append, clock_cons, Step.duration]
    omega

end

/-! ## Tasks -/

/-- A task that sleeps until a time and then carries out an action. It sleeps no more once it has done so, and neither
does one that has been aborted. -/
structure Task (α : Type) where
  action : α
  wake : Nat
  isAsleep : Bool
deriving DecidableEq, Repr

/-- A debouncer with all tasks that have been started, be it for another one in whose place it is, and the one of
which it has a handle. -/
structure Tasks (α : Type) where
  delay : Nat
  started : List (Task α)
  handle : Option Nat
deriving DecidableEq, Repr

namespace Tasks

/-- A debouncer for which no task has been started. -/
def ofDelay (delay : Nat) : Tasks α := ⟨delay, [], none⟩

/-- Aborts the task of which there is a handle, and gives up the handle. -/
def cancel (s : Tasks α) : Tasks α :=
  match s.handle with
  | none => s
  | some i => { s with started := s.started.modify i fun t => { t with isAsleep := false }, handle := none }

/-- Aborts the task of which there is a handle, and starts another one. -/
def schedule (s : Tasks α) (now : Nat) (action : α) : Tasks α :=
  { s.cancel with
    started := s.cancel.started ++ [⟨action, now + s.delay, true⟩]
    handle := some s.cancel.started.length }

/-- What a step does to the tasks by itself. A debouncer that goes aborts its task, and a new one has no handle. -/
def apply (s : Tasks α) (now : Nat) : Step α → Tasks α
  | .schedule action => s.schedule now action
  | .cancel => s.cancel
  | .replace => { s.cancel with handle := none }
  | .advance _ => s

/-- Whether the task of which there is a handle sleeps. -/
def isPending (s : Tasks α) : Bool := (s.handle.bind (s.started[·]?)).any (·.isAsleep)

/-- What is carried out by the tasks that wake up by a time, and when. -/
def due (s : Tasks α) (now : Nat) : List (α × Nat) :=
  (s.started.filter fun t => t.isAsleep && t.wake ≤ now).map fun t => (t.action, t.wake)

/-- The tasks that wake up by a time have done so. -/
def settle (s : Tasks α) (now : Nat) : Tasks α :=
  { s with started := s.started.map fun t => { t with isAsleep := t.isAsleep && now < t.wake } }

/-- The tasks and the time behind a step. -/
def next (s : Tasks α × Nat) (step : Step α) : Tasks α × Nat :=
  ((s.1.apply s.2 step).settle (s.2 + step.duration), s.2 + step.duration)

/-- What is carried out in a step, and when. -/
def firing (s : Tasks α × Nat) (step : Step α) : List (α × Nat) :=
  (s.1.apply s.2 step).due (s.2 + step.duration)

/-- The tasks and the time after some steps. -/
def after (delay : Nat) (steps : List (Step α)) : Tasks α × Nat := steps.foldl next (ofDelay delay, 0)

/-- What is carried out in some steps, each action with the time at which it is. -/
def fired (delay : Nat) (steps : List (Step α)) : List (α × Nat) := said next firing (ofDelay delay, 0) steps

/-- What the sleeping tasks are going to carry out, and when. -/
def asleep (s : Tasks α) : List (α × Nat) := (s.started.filter (·.isAsleep)).map fun t => (t.action, t.wake)

/-- Whichever task sleeps, it is the one of which there is a handle. -/
def IsHeld (s : Tasks α) : Prop := ∀ i t, s.started[i]? = some t → t.isAsleep = true → s.handle = some i

/-- What waits in a debouncer is what sleeps, and there is a handle of it. -/
structure Corresponds (s : Tasks α) (d : Debouncer α) : Prop where
  delay : s.delay = d.delay
  asleep : s.asleep = d.waiting.toList
  held : s.IsHeld

variable {s : Tasks α} {d : Debouncer α}

@[simp] theorem delay_cancel (s : Tasks α) : s.cancel.delay = s.delay := by
  rw [cancel]
  split <;> rfl

/-- When the only sleeping task has been aborted, none sleeps. -/
theorem IsHeld.not_asleep_of_mem_cancel (h : s.IsHeld) {t : Task α} (ht : t ∈ s.cancel.started) :
    t.isAsleep = false := by
  obtain ⟨i, hi⟩ := List.mem_iff_getElem?.mp ht
  rw [cancel] at hi
  cases hhandle : s.handle with
  | none =>
    rw [hhandle] at hi
    cases hsleeps : t.isAsleep with
    | false => rfl
    | true => cases hhandle.symm.trans (h i t hi hsleeps)
  | some j =>
    rw [hhandle] at hi
    dsimp only at hi
    rw [List.getElem?_modify] at hi
    obtain ⟨t', ht', rfl⟩ := Option.map_eq_some_iff.mp hi
    split
    · rfl
    · rename_i hne
      cases hsleeps : t'.isAsleep with
      | false => rfl
      | true => exact absurd (Option.some.inj (hhandle.symm.trans (h i t' ht' hsleeps))) hne

theorem IsHeld.asleep_cancel (h : s.IsHeld) : s.cancel.asleep = [] := by
  have hnone : s.cancel.started.filter (·.isAsleep) = [] :=
    List.filter_eq_nil_iff.mpr fun t ht => by simp [h.not_asleep_of_mem_cancel ht]
  rw [asleep, hnone, List.map_nil]

/-- Which of the sleeping tasks wake up when is seen from what they are going to carry out. -/
theorem filter_asleep (s : Tasks α) (p : Nat → Bool) :
    (s.started.filter fun t => t.isAsleep && p t.wake).map (fun t => (t.action, t.wake)) =
      s.asleep.filter fun w => p w.2 := by
  rw [asleep, List.filter_map, List.filter_filter]
  congr 1
  exact List.filter_congr fun t _ => Bool.and_comm ..

namespace Corresponds

theorem cancel (h : s.Corresponds d) : s.cancel.Corresponds d.cancel where
  delay := (delay_cancel s).trans h.delay
  asleep := h.held.asleep_cancel
  held := fun i t hi hsleeps => by
    rw [h.held.not_asleep_of_mem_cancel (List.mem_of_getElem? hi)] at hsleeps
    cases hsleeps

theorem schedule (h : s.Corresponds d) (now : Nat) (action : α) :
    (s.schedule now action).Corresponds (d.schedule now action) where
  delay := (delay_cancel s).trans h.delay
  asleep := by
    have hbefore := h.held.asleep_cancel
    rw [Tasks.asleep, List.map_eq_nil_iff] at hbefore
    simp [Tasks.asleep, Tasks.schedule, Debouncer.schedule, hbefore, h.delay]
  held := fun i t hi hsleeps => by
    have hstarted : (s.schedule now action).started = s.cancel.started ++ [⟨action, now + s.delay, true⟩] := rfl
    rw [hstarted] at hi
    rcases Nat.lt_or_ge i s.cancel.started.length with hlt | hge
    · rw [List.getElem?_append_left hlt] at hi
      rw [h.held.not_asleep_of_mem_cancel (List.mem_of_getElem? hi)] at hsleeps
      cases hsleeps
    · have hbound := (List.getElem?_eq_some_iff.mp hi).1
      rw [List.length_append, List.length_singleton] at hbound
      have heq : i = s.cancel.started.length := by omega
      rw [heq]
      rfl

theorem apply (h : s.Corresponds d) (now : Nat) (step : Step α) : (s.apply now step).Corresponds (step.apply d now) := by
  cases step with
  | schedule action => exact h.schedule now action
  | cancel => exact h.cancel
  | replace =>
    have hcancel := h.cancel
    refine ⟨hcancel.delay, hcancel.asleep, fun i t hi hsleeps => ?_⟩
    rw [h.held.not_asleep_of_mem_cancel (List.mem_of_getElem? hi)] at hsleeps
    cases hsleeps
  | advance duration => exact h

theorem due_eq (h : s.Corresponds d) (now : Nat) : s.due now = (d.due? now).toList := by
  rw [due, filter_asleep s (decide <| · ≤ now), h.asleep, due?]
  cases d.waiting with
  | none => rfl
  | some w => by_cases hdue : w.2 ≤ now <;> simp [Option.filter_some, hdue]

theorem settle (h : s.Corresponds d) (now : Nat) : (s.settle now).Corresponds (d.settle now) where
  delay := h.delay.trans (delay_settle d now).symm
  asleep := by
    have hfilter := filter_asleep s (decide <| now < ·)
    rw [waiting_settle, Tasks.asleep, Tasks.settle, List.filter_map, List.map_map]
    refine hfilter.trans ?_
    rw [h.asleep]
    cases d.waiting with
    | none => rfl
    | some w => by_cases hlater : now < w.2 <;> simp [Option.filter_some, hlater]
  held := fun i t hi hsleeps => by
    rw [Tasks.settle, List.getElem?_map] at hi
    obtain ⟨t', ht', rfl⟩ := Option.map_eq_some_iff.mp hi
    exact h.held i t' ht' (Bool.and_eq_true_iff.mp hsleeps).1

theorem isPending_eq (h : s.Corresponds d) : s.isPending = d.isPending := by
  rw [Bool.eq_iff_iff, Debouncer.isPending, Tasks.isPending, Option.any_eq_true, Option.isSome_iff_exists]
  constructor
  · rintro ⟨t, ht, hsleeps⟩
    obtain ⟨i, -, hi⟩ := Option.bind_eq_some_iff.mp ht
    have hmem : (t.action, t.wake) ∈ s.asleep :=
      List.mem_map_of_mem (List.mem_filter.mpr ⟨List.mem_of_getElem? hi, hsleeps⟩)
    rw [h.asleep, Option.mem_toList] at hmem
    exact ⟨_, hmem⟩
  · rintro ⟨w, hw⟩
    have hmem : w ∈ s.asleep := by rw [h.asleep, Option.mem_toList, hw]
    obtain ⟨t, ht, -⟩ := List.mem_map.mp hmem
    obtain ⟨hstarted, hsleeps⟩ := List.mem_filter.mp ht
    obtain ⟨i, hi⟩ := List.mem_iff_getElem?.mp hstarted
    exact ⟨t, by rw [h.held i t hi hsleeps]; exact hi, hsleeps⟩

end Corresponds

/-- **One place is enough for all tasks**: the same is carried out, and the same waits. -/
theorem fired_eq (delay : Nat) (steps : List (Step α)) :
    fired delay steps = Debouncer.fired delay steps ∧
      (after delay steps).1.isPending = (Debouncer.after delay steps).1.isPending := by
  have hstep (s : Tasks α × Nat) (r : Debouncer α × Nat) (step : Step α) (h : s.1.Corresponds r.1 ∧ s.2 = r.2) :
      firing s step = Debouncer.firing r step ∧
        (next s step).1.Corresponds (Debouncer.next r step).1 ∧ (next s step).2 = (Debouncer.next r step).2 := by
    obtain ⟨tasks, now⟩ := s
    obtain ⟨d, _⟩ := r
    obtain ⟨h, rfl⟩ := h
    have happly := h.apply now step
    exact ⟨happly.due_eq _, happly.settle _, rfl⟩
  have hnothing : (ofDelay delay : Tasks α).Corresponds (Debouncer.ofDelay delay) := ⟨rfl, rfl, nofun⟩
  obtain ⟨hsaid, hlast, -⟩ := said_eq_of_corresponds hstep (s := (ofDelay delay, 0))
    (r := (Debouncer.ofDelay delay, 0)) ⟨hnothing, rfl⟩ steps
  exact ⟨hsaid, hlast.isPending_eq⟩

end Tasks

/-- **What a debouncer carries out.** Whatever happens to it, and whatever its delay: it carries out exactly the
actions for which it is left alone until their delay is over, each of them once and at just that time, in the order in
which they were asked for and a delay apart from each other at least; and an action waits if and only if it is the last
one that was asked for, nothing has been asked since, and it has not been carried out. All of this is the same if every
task that has been started is kept, and not only the action that waits. -/
theorem fires_survivors (delay : Nat) (steps : List (Step α)) :
    fired delay steps = survivors delay 0 steps ∧
    ((fired delay steps).Pairwise fun f g => f.2 + delay ≤ g.2) ∧
    ((after delay steps).1.isPending ↔ ∃ before action behind, steps = before ++ .schedule action :: behind ∧
      (∀ step ∈ behind, step.isCall = false) ∧ ¬ Survives (clock before + delay) (clock before) behind) ∧
    Tasks.fired delay steps = fired delay steps ∧
      (Tasks.after delay steps).1.isPending = (after delay steps).1.isPending := by
  have hfired : fired delay steps = survivors delay 0 steps := by
    rw [fired, said_eq (by simp [IsSettled, ofDelay])]
    rfl
  refine ⟨hfired, ?_, isPending_iff delay steps, Tasks.fired_eq delay steps⟩
  rw [hfired]
  exact pairwise_survivors delay 0 steps

end Debouncer

end Scratchpad
