import Scratchpad.Proofs.Run.Deeds
import Scratchpad.Proofs.Sandbox.Call

/-!
# What jobs do in the sandbox

A job that goes on works in the sandbox by calls, and time that goes by does nothing there. So what no call
changes is changed by the script alone: which gates are held, how a process ended, which files are refused.

## Main definitions

* `Leg.Makes`, `Leg.MakesFor`: the calls that are made on a leg, and those that a job makes on it.

## Main statements

* `worksBy_go`, `works_resume`, `works_settle`: a leg, a job that goes on, and all of them work by calls.
* `exists_ended_turn`: a process that has ended stays so.
* `refusals_after`: no file is ever refused in a history.
-/

namespace Scratchpad.Run

open Log Sandbox Supervision

variable {workshop : Workshop} {run : Nat} {job : Job}

/-- The calls that are made on a leg: a process is read on the leg that reads it, and on no other. -/
def Leg.Makes (leg : Leg) (c : Call) : Prop :=
  ∀ p, c = .markRead p → ∃ reader batcher nextFlush, leg = .read p reader batcher nextFlush

/-- The calls that a job makes on a leg: a program is started for its run, and as the job has it started. -/
structure Leg.MakesFor (workshop : Workshop) (run : Nat) (job : Job) (leg : Leg) (c : Call) : Prop where
  makes : leg.Makes c
  starts : ∀ r launch, c = .spawn r launch → r = run ∧ launch = job.launch workshop

/-- A call that neither reads a process nor starts one may be made on any leg. -/
theorem Leg.MakesFor.of_isModest {leg : Leg} {c : Call} (h : c.IsModest) : leg.MakesFor workshop run job c :=
  ⟨fun p hc => absurd hc (h.1 p), fun r launch hc => absurd hc (h.2 r launch)⟩

theorem worksBy_abandon (w : Supervision) (p : Nat) : w.sandbox.WorksBy Call.IsModest (w.abandon run p).sandbox :=
  (Script.WorksBy.of_call w.sandbox (c := .kill p) (by simp)).trans (.of_call _ (c := .dismiss p) (by simp))

theorem worksBy_close (w : Supervision) (p : Nat) (reader : LineReader) (batcher : Batcher Entry) :
    w.sandbox.WorksBy Call.IsModest (w.close run job p reader batcher).sandbox := by
  rw [sandbox_close]
  exact .of_call w.sandbox (c := .dismiss p) (by simp)

/-- **On every leg a job works by calls**, reads only the process that the leg is about, and starts only its own
program. -/
theorem worksBy_go (w : Supervision) (leg : Leg) :
    w.sandbox.WorksBy (leg.MakesFor workshop run job) (go workshop run job w leg).2.sandbox := by
  have hmodest {leg : Leg} {c : Call} (s : Script) (h : c.IsModest) :
      s.WorksBy (leg.MakesFor workshop run job) (s.call c) := .of_call s (.of_isModest h)
  cases leg with
  | begin source =>
    rw [go]
    split <;> exact .refl _
  | reach part entry =>
    rw [go]
    split
    · exact .refl _
    · split
      · exact hmodest w.sandbox (c := .await .write run) (by simp)
      · exact .refl _
  | write part entry =>
    have hcall : w.sandbox.WorksBy ((Leg.write part entry).MakesFor workshop run job)
        (w.sandbox.call (.write (part.path workshop) (part.contents entry))) := hmodest w.sandbox (by simp)
    rw [go]
    split
    · rename_i failure sandbox heq
      rwa [Script.call, heq] at hcall
    · rename_i sandbox heq
      rwa [Script.call, heq] at hcall
  | reachSpawn =>
    rw [go]
    split
    · exact hmodest w.sandbox (c := .await .spawn run) (by simp)
    · exact .refl _
  | spawn =>
    have hcall : w.sandbox.WorksBy (Leg.spawn.MakesFor workshop run job)
        (w.sandbox.call (.spawn run (job.launch workshop))) := by
      refine .of_call w.sandbox ⟨by simp [Leg.Makes], ?_⟩
      rintro r launch ⟨⟩
      exact ⟨rfl, rfl⟩
    rw [go]
    dsimp only
    split
    · rename_i failure sandbox heq
      rw [Script.call, Job.launch, heq] at hcall
      exact hcall
    · rename_i p sandbox heq
      rw [Script.call, Job.launch, heq] at hcall
      split
      · exact hcall.trans ((worksBy_abandon { w with sandbox := sandbox } p).mono fun _ => .of_isModest)
      · exact hcall
  | read p reader batcher nextFlush =>
    rw [go]
    split
    · exact (worksBy_abandon w p).mono fun _ => .of_isModest
    · dsimp only
      have hmark : w.sandbox.WorksBy ((Leg.read p reader batcher nextFlush).MakesFor workshop run job)
          (w.sandbox.markRead p) := by
        refine .of_call w.sandbox (c := .markRead p) ⟨?_, by simp⟩
        rintro p' ⟨⟩
        exact ⟨reader, batcher, nextFlush, rfl⟩
      split <;> simpa [atStage] using hmark
  | awaitExit p reader batcher =>
    rw [go]
    split
    · exact hmodest w.sandbox (c := .await .wait run) (by simp)
    · exact .refl _
  | close p reader batcher => exact (worksBy_close w p reader batcher).mono fun _ => .of_isModest
  | rest => exact .refl _

/-- A job that departs neither reads a process nor starts one. -/
theorem worksBy_depart (w : Supervision) :
    w.sandbox.WorksBy Call.IsModest (depart run job w).2.sandbox := by
  rw [depart]
  split
  · exact .refl _
  · split
    · exact .of_call w.sandbox (c := .leave .write run) (by simp)
    · split <;> exact .refl _
  · split <;> exact .refl _
  · exact .refl _
  · split
    · exact (Script.WorksBy.of_call w.sandbox (c := .leave .wait run) (by simp)).trans
        (worksBy_abandon { w with sandbox := w.sandbox.leave .wait run } _)
    · split <;> exact .refl _
  · exact .refl _

/-- A job that goes on works by calls. -/
theorem works_resume (w : Supervision) (run : Nat) :
    w.sandbox.Works (resume workshop w run).sandbox := by
  cases hjob : w.jobs[run]? with
  | none =>
    rw [resume, hjob]
    exact .refl _
  | some job =>
    have h : w.sandbox.Works (Leg.rest, resume workshop w run).2.sandbox :=
      resume_induction (P := fun position => w.sandbox.Works position.2.sandbox) hjob
        (worksBy_depart w).works fun leg w' hw => hw.trans (worksBy_go w' leg).works
    exact h

/-- **Jobs that go on work by calls.** -/
theorem works_settle (w : Supervision) : w.sandbox.Works (settle workshop w).sandbox :=
  List.foldlRecOn (motive := fun w' => w.sandbox.Works w'.sandbox) (b := { w with ready := [] }) w.ready
    (resume workshop) (.refl _) fun w' hw' run _ => hw'.trans (works_resume w' run)

/-- What is done in a quiet turn that tells no process what to do is nothing to the processes. -/
theorem processes_of_unaddressed {action : Action} (ht : (Turn.act action).isQuiet = true)
    (ha : action.addressee? = none) :
    (perform workshop w action).2.sandbox.processes = w.sandbox.processes := by
  cases action with
  | start source text matchLines environment => cases ht
  | advance ms => cases ht
  | emit p chunk => cases ha
  | exit p code => cases ha
  | lose p => cases ha
  | stop => exact congrArg Script.processes (sandbox_wakeActive w)
  | hold point => exact Script.processes_hold ..
  | release point =>
    obtain ⟨-, hsandbox, -, -⟩ :=
      foldl_wake (w.sandbox.gate point).callers { w with sandbox := w.sandbox.release point }
    exact (congrArg Script.processes hsandbox).trans (Script.processes_release ..)
  | _ => rfl

/-- **A process that has ended stays so**, and belongs to the run that started it. -/
theorem exists_ended_turn {w : Supervision} {p : Nat} {q : Process} (hq : w.sandbox.processes[p]? = some q)
    (hended : q.control ≠ .alive) (t : Turn) :
    ∃ q', (turn workshop w t).sandbox.processes[p]? = some q' ∧ q'.owner = q.owner ∧
      q'.control = q.control := by
  have hsame : ∀ {s : Script}, s.processes = w.sandbox.processes →
      ∃ q', s.processes[p]? = some q' ∧ q'.owner = q.owner ∧ q'.control = q.control :=
    fun hp => ⟨q, by rw [hp, hq], rfl, rfl⟩
  rcases t.kinds with ht | rfl | ⟨ms, rfl⟩ | ⟨source, text, matchLines, environment, rfl⟩
  · cases t with
    | settle => cases ht
    | act action =>
      rw [turn]
      cases ha : action.addressee? with
      | none => exact hsame (processes_of_unaddressed ht ha)
      | some p' =>
        cases hq' : w.sandbox.controlled? p' with
        | none =>
          rw [perform_of_uncontrolled ha hq']
          exact hsame rfl
        | some q' =>
          obtain ⟨hp', halive⟩ := (w.sandbox.controlled?_eq_some p').mp hq'
          have hne : p' ≠ p := by
            rintro rfl
            rw [Option.some.inj (hq.symm.trans hp')] at hended
            exact hended halive
          rw [perform_of_controlled ha hq', sandbox_wake, Script.getElem?_modifyProcess, if_neg hne]
          exact hsame rfl
  · exact (works_settle w).exists_process hq
  · rw [turn, perform, sandbox_elapse]
    exact (works_settle w).exists_process hq
  · rw [turn, perform, sandbox_start]
    exact hsame rfl

/-- No file is refused by what is done from outside. -/
theorem refusals_turn (w : Supervision) (t : Turn) :
    (turn workshop w t).sandbox.refusals = w.sandbox.refusals := by
  have hsettle : (settle workshop w).sandbox.refusals = w.sandbox.refusals := (works_settle w).refusals_eq
  cases t with
  | settle => exact hsettle
  | act action =>
    rw [turn]
    cases ha : action.addressee? with
    | some p =>
      cases hq : w.sandbox.controlled? p with
      | none => rw [perform_of_uncontrolled ha hq]
      | some q =>
        rw [perform_of_controlled ha hq, sandbox_wake]
        rfl
    | none =>
      cases action with
      | start source text matchLines environment => rw [perform, sandbox_start]
      | stop => exact congrArg Script.refusals (sandbox_wakeActive w)
      | emit p chunk => cases ha
      | exit p code => cases ha
      | lose p => cases ha
      | hold point => cases point <;> rfl
      | release point =>
        obtain ⟨-, hsandbox, -, -⟩ :=
          foldl_wake (w.sandbox.gate point).callers { w with sandbox := w.sandbox.release point }
        rw [perform, hsandbox]
        cases point <;> rfl
      | advance ms => exact (congrArg Script.refusals (sandbox_elapse workshop _ ms)).trans hsettle
      | _ => rfl

/-- **No file is ever refused in a history.** A write may fail all the same if the script says so. -/
theorem refusals_after (workshop : Workshop) (turns : List Turn) :
    (after workshop turns).sandbox.refusals = [] :=
  List.foldlRecOn (motive := fun w => w.sandbox.refusals = []) turns (turn workshop) rfl
    fun w hw t _ => (refusals_turn w t).trans hw

end Scratchpad.Run
