import Scratchpad.Proofs.Run.Delivery
import Scratchpad.Proofs.Run.Work

/-!
# What programs are started with

A process is started for a run, and only as the run has been asked for: the record of launches holds, for every
process, the program and the file of the workshop and the environment of the run that owns the process. Nothing that
happens to a process later, and no run that is started later, changes the record.

## Main definitions

* `Script.StartsAs`: every process has been started as its owner has it.
* `Request.launch`: what a program is started with, given what its run is asked for.

## Main statements

* `startsAs_turn`: every turn keeps that processes are started as their owners have it.
* `launches_after`: the record of launches after a history.
-/

namespace Scratchpad.Sandbox.Script

variable {s s' : Script} {orders : List Launch}

/-- Every process has been started as its owner has it, and there is nothing else in the record. -/
def StartsAs (s : Script) (orders : List Launch) : Prop :=
  s.processes.map (fun p => orders[p.owner]?) = s.launches.map some

namespace StartsAs

/-- The record holds what a process was started with. -/
theorem getElem? (h : s.StartsAs orders) {p : Nat} {q : Process} (hq : s.processes[p]? = some q) :
    ∃ launch, orders[q.owner]? = some launch ∧ s.launches[p]? = some launch := by
  have hp := congrArg (·[p]?) h
  simp only [List.getElem?_map, hq, Option.map_some] at hp
  obtain ⟨launch, hlaunch, horder⟩ := Option.map_eq_some_iff.mp hp.symm
  exact ⟨launch, horder.symm, hlaunch⟩

/-- Whatever is in the record has been asked for. -/
theorem mem_orders (h : s.StartsAs orders) {launch : Launch} (hlaunch : launch ∈ s.launches) : launch ∈ orders := by
  have hmem : some launch ∈ s.launches.map some := List.mem_map_of_mem hlaunch
  rw [← h] at hmem
  obtain ⟨p, -, hp⟩ := List.mem_map.mp hmem
  exact List.mem_of_getElem? hp

/-- Only owners and launches matter. -/
theorem of_eq (h : s.StartsAs orders) (howners : s'.processes.map (·.owner) = s.processes.map (·.owner))
    (hlaunches : s'.launches = s.launches) : s'.StartsAs orders := by
  have hmap (t : Script) :
      t.processes.map (fun p => orders[p.owner]?) = (t.processes.map (·.owner)).map (orders[·]?) := by
    rw [List.map_map]
    rfl
  rw [StartsAs, hmap, howners, hlaunches, ← hmap]
  exact h

/-- Runs that are asked for later start no process that is there already. -/
theorem append (h : s.StartsAs orders) (more : List Launch) : s.StartsAs (orders ++ more) := by
  rw [StartsAs, ← h]
  refine List.map_congr_left fun p hp => List.getElem?_append_left ?_
  obtain ⟨i, hi⟩ := List.mem_iff_getElem?.mp hp
  obtain ⟨launch, horder, -⟩ := h.getElem? hi
  exact (List.getElem?_eq_some_iff.mp horder).1

theorem modifyProcess (h : s.StartsAs orders) (p : Nat) {f : Process → Process} (hf : ∀ q, (f q).owner = q.owner) :
    (s.modifyProcess p f).StartsAs orders :=
  h.of_eq (map_modify_of_eq hf) rfl

/-- A process that is started for a run as the run is asked for. -/
theorem spawn (h : s.StartsAs orders) {run : Nat} {launch : Launch} (horder : orders[run]? = some launch) :
    (s.spawn run launch).2.StartsAs orders := by
  rw [Script.spawn]
  split
  · exact h
  · simp only [StartsAs, List.map_append, List.map_cons, List.map_nil, horder]
    rw [h]

/-- **A call keeps that processes are started as their owners have it**, if it starts none otherwise. -/
theorem call (h : s.StartsAs orders) {c : Call}
    (hc : ∀ run launch, c = .spawn run launch → orders[run]? = some launch) : (s.call c).StartsAs orders := by
  cases c with
  | write path contents =>
    refine h.of_eq (by rw [Script.call, processes_write]) ?_
    rw [Script.call, Script.write]
    split
    · rfl
    · split <;> rfl
  | spawn run launch => exact h.spawn (hc run launch rfl)
  | kill p => exact h.modifyProcess p fun q => by split <;> rfl
  | dismiss p => exact h.modifyProcess p fun q => rfl
  | markRead p => exact h.modifyProcess p fun q => rfl
  | await point run => cases point <;> exact h
  | leave point run => cases point <;> exact h

/-- Calls keep it too. -/
theorem worksBy (h : s.StartsAs orders) {P : Call → Prop} (hworks : WorksBy P s s')
    (hP : ∀ run launch, P (.spawn run launch) → orders[run]? = some launch) : s'.StartsAs orders :=
  hworks.induction (Q := (StartsAs · orders)) h fun _ _ hc hs => hs.call fun run launch heq => hP run launch (heq ▸ hc)

end StartsAs

end Scratchpad.Sandbox.Script

namespace Scratchpad.Run

open Log Sandbox Supervision

variable {workshop : Workshop} {w : Supervision}

/-- What a program is started with, given what its run is asked for. -/
def Request.launch (workshop : Workshop) (r : Request) : Launch :=
  ⟨workshop.settings.program, [workshop.settings.entryFile], r.environment⟩

namespace Supervision

/-- Every process has been started as its job has it. -/
def StartsAs (workshop : Workshop) (w : Supervision) : Prop :=
  w.sandbox.StartsAs (w.jobs.map (Job.launch workshop))

end Supervision

/-- What jobs start their programs with follows from what they keep of what they are asked for. -/
theorem map_launch_eq (jobs : List Job) : jobs.map (Job.launch workshop) =
    (jobs.map Job.order).map fun order => ⟨workshop.settings.program, [workshop.settings.entryFile], order.2⟩ := by
  rw [List.map_map]
  rfl

theorem map_launch_turn (w : Supervision) (t : Turn) : (turn workshop w t).jobs.map (Job.launch workshop) =
    w.jobs.map (Job.launch workshop) ++ t.request?.toList.map (Request.launch workshop) := by
  rw [map_launch_eq, map_order_turn, List.map_append, ← map_launch_eq, List.map_map]
  rfl

/-- A job that goes on starts its program as it has it. -/
theorem startsAs_resume (h : w.StartsAs workshop) (run : Nat) : (resume workshop w run).StartsAs workshop := by
  have hjobs : (resume workshop w run).jobs.map (Job.launch workshop) = w.jobs.map (Job.launch workshop) := by
    rw [map_launch_eq, (Spares.resume w run).map_order, ← map_launch_eq]
  rw [StartsAs, hjobs]
  cases hjob : w.jobs[run]? with
  | none =>
    rw [resume, hjob]
    exact h
  | some job =>
    have horder : (w.jobs.map (Job.launch workshop))[run]? = some (job.launch workshop) := by
      rw [List.getElem?_map, hjob, Option.map_some]
    have hresume : (Leg.rest, resume workshop w run).2.sandbox.StartsAs (w.jobs.map (Job.launch workshop)) := by
      refine resume_induction
        (P := fun position => position.2.sandbox.StartsAs (w.jobs.map (Job.launch workshop))) hjob ?_ ?_
      · exact Script.StartsAs.worksBy h (worksBy_depart w) fun r launch hmodest => absurd rfl (hmodest.2 r launch)
      · intro leg w' hw'
        refine Script.StartsAs.worksBy hw' (worksBy_go w' leg) fun r launch hmakes => ?_
        obtain ⟨rfl, rfl⟩ := hmakes.starts r launch rfl
        exact horder
    exact hresume

theorem startsAs_settle (h : w.StartsAs workshop) : (settle workshop w).StartsAs workshop :=
  List.foldlRecOn (motive := StartsAs workshop) (b := { w with ready := [] }) w.ready (resume workshop) h
    fun _ hw' run _ => startsAs_resume hw' run

/-- Whatever is done in a quiet turn, no process changes hands and none is started. -/
theorem owners_quiet {t : Turn} (ht : t.isQuiet = true) (w : Supervision) :
    (turn workshop w t).sandbox.processes.map (·.owner) = w.sandbox.processes.map (·.owner) := by
  cases t with
  | settle => cases ht
  | act action =>
    rw [turn]
    cases ha : action.addressee? with
    | none => rw [processes_of_unaddressed ht ha]
    | some p =>
      cases hq : w.sandbox.controlled? p with
      | none => rw [perform_of_uncontrolled ha hq]
      | some q =>
        rw [perform_of_controlled ha hq, sandbox_wake]
        exact map_modify_of_eq action.owner_effect

/-- **Every turn keeps that processes are started as their owners have it.** -/
theorem startsAs_turn (h : w.StartsAs workshop) (t : Turn) : (turn workshop w t).StartsAs workshop := by
  have hsettle := startsAs_settle h
  rcases t.kinds with ht | rfl | ⟨ms, rfl⟩ | ⟨source, text, matchLines, environment, rfl⟩
  · rw [StartsAs, (quiet_turn workshop ht w).1]
    exact h.of_eq (owners_quiet ht w) (congrArg Prod.snd (quiet_turn workshop ht w).2.1)
  · exact hsettle
  · have hjobs : (turn workshop w (.act (.advance ms))).jobs.map (Job.launch workshop) =
        (settle workshop w).jobs.map (Job.launch workshop) := by
      rw [map_launch_eq, turn, perform, map_order_elapse, ← map_launch_eq]
    rw [StartsAs, hjobs, turn, perform, sandbox_elapse]
    exact hsettle
  · rw [StartsAs, map_launch_turn, turn, perform, sandbox_start]
    exact h.append _

/-- After a history every process has been started as its owner has it. -/
theorem startsAs_after (workshop : Workshop) (turns : List Turn) : (after workshop turns).StartsAs workshop :=
  List.foldlRecOn (motive := StartsAs workshop) turns (turn workshop) rfl fun _ hw t _ => startsAs_turn hw t

/-- **The record of launches holds, for every process, what its owner was asked for.** -/
theorem launches_after (workshop : Workshop) (turns : List Turn) {p : Nat} {q : Process}
    (hq : (after workshop turns).sandbox.processes[p]? = some q) :
    ∃ r, (requests turns)[q.owner]? = some r ∧
      (after workshop turns).sandbox.launches[p]? = some (r.launch workshop) := by
  have horders : (after workshop turns).jobs.map (Job.launch workshop) =
      (requests turns).map (Request.launch workshop) := by
    rw [map_launch_eq, jobs_after, List.map_map]
    rfl
  obtain ⟨launch, horder, hlaunch⟩ := (startsAs_after workshop turns).getElem? hq
  rw [horders, List.getElem?_map] at horder
  obtain ⟨r, hr, rfl⟩ := Option.map_eq_some_iff.mp horder
  exact ⟨r, hr, hlaunch⟩

end Scratchpad.Run
