import Scratchpad.Proofs.Run.Alike

/-!
# A run that has been told to end influences nothing

Take two worlds in which the same has happened, except that processes whose runs had been told to end were
told to print or to end differently, or only in one of the two. Nobody can tell the two worlds apart: the
slot and with it everything that subscribers have received is the same, and so are the files, the launches
and every process that was told the same.

Such a process only ever wakes a run that is over, or one that has been woken already and will abandon it.
So the two worlds stay alike but for these processes, and the jobs that have something to go on for are the
same but for jobs that have ended.

## Main definitions

* `Supervision.awake`: the jobs that have been woken and have not ended.
* `Paired`: two worlds are alike but for some stale processes, and the same jobs are awake.
* `Twins`: two worlds whose histories differ only in what stale processes are told.

## Main statements

* `Sound.hasEnded_or_awake`: the owner of a stale process has ended, or is awake and about to.
* `Paired.settle`, `Paired.act`: what happens in both keeps them paired.
* `Paired.left`, `Paired.right`: so does what a stale process is told in one of them.
* `twins_agree`: twins agree on everything that can be observed.
-/

namespace Scratchpad.Run

open Log Sandbox Supervision

variable {workshop : Workshop} {ps : List Nat} {w w' : Supervision}

/-! ## Jobs that have ended -/

/-- Whether a job has ended. -/
def Stage.isEnded : Stage → Bool
  | .ended => true
  | _ => false

namespace Supervision

/-- Whether the job of a run has ended. -/
def hasEnded (w : Supervision) (run : Nat) : Bool := w.jobs[run]?.any (·.stage.isEnded)

/-- The jobs that have been woken and have not ended. -/
def awake (w : Supervision) : List Nat := w.ready.filter fun run => !w.hasEnded run

theorem hasEnded_iff {run : Nat} :
    w.hasEnded run = true ↔ ∃ job, w.jobs[run]? = some job ∧ job.stage = .ended := by
  rw [hasEnded, Option.any_eq_true]
  apply exists_congr
  intro job
  apply and_congr_right
  intro _
  cases job.stage <;> simp [Stage.isEnded]

theorem awake_congr {v : Supervision} (hready : v.ready = w.ready)
    (hended : ∀ run, v.hasEnded run = w.hasEnded run) : v.awake = w.awake := by
  rw [awake, awake, hready, funext hended]

theorem hasEnded_congr {v : Supervision} (hjobs : v.jobs = w.jobs) (run : Nat) :
    v.hasEnded run = w.hasEnded run := by
  rw [hasEnded, hasEnded, hjobs]

/-- A job that has ended does not go on. -/
theorem resume_of_hasEnded {run : Nat} (h : w.hasEnded run = true) : resume workshop w run = w := by
  obtain ⟨job, hjob, hs⟩ := hasEnded_iff.mp h
  simp [resume, hjob, hs]

/-- A job that has ended does not begin anew. -/
theorem hasEnded_resume {run r : Nat} (h : w.hasEnded r = true) :
    (resume workshop w run).hasEnded r = true := by
  by_cases hr : r = run
  · rw [← hr, resume_of_hasEnded h]
    exact h
  · rwa [hasEnded, (Spares.resume w run).jobs_of_ne hr]

/-- Jobs that have ended may be left out of those that go on. -/
theorem foldl_resume_filter {goesOn : Nat → Bool} (runs : List Nat)
    (hends : ∀ r, goesOn r = false → w.hasEnded r = true) :
    (runs.filter goesOn).foldl (resume workshop) w = runs.foldl (resume workshop) w := by
  induction runs generalizing w with
  | nil => rfl
  | cons run runs ih =>
    cases hrun : goesOn run with
    | true =>
      rw [List.filter_cons_of_pos hrun]
      exact ih fun r hr => hasEnded_resume (hends r hr)
    | false =>
      rw [List.filter_cons_of_neg (by simp [hrun]), List.foldl_cons, resume_of_hasEnded (hends run hrun)]
      exact ih hends

theorem settle_eq_foldl_awake (w : Supervision) :
    settle workshop w = w.awake.foldl (resume workshop) { w with ready := [] } := by
  rw [awake, foldl_resume_filter]
  · rfl
  · exact fun r hr => by simpa [hasEnded] using hr

/-- To wake a job that has ended, or one that is awake, is of no account. -/
theorem awake_wake (w : Supervision) (run : Nat) :
    (w.wake run).awake =
      if w.hasEnded run = true ∨ run ∈ w.awake then w.awake else w.awake ++ [run] := by
  have hended : ∀ r, (w.wake run).hasEnded r = w.hasEnded r := hasEnded_congr (jobs_wake w run)
  by_cases hready : run ∈ w.ready
  · have hwake : w.wake run = w := by simp [wake, hready]
    have hmem : w.hasEnded run = true ∨ run ∈ w.awake := by
      cases hrun : w.hasEnded run with
      | true => exact .inl rfl
      | false => exact .inr (List.mem_filter.mpr ⟨hready, by simp [hrun]⟩)
    rw [hwake, if_pos hmem]
  · have hwake : (w.wake run).ready = w.ready ++ [run] := by simp [wake, hready]
    rw [awake, hwake, funext hended, List.filter_append]
    cases hrun : w.hasEnded run with
    | true => simp [hrun, awake]
    | false => simp [hrun, hready, awake]

end Supervision

/-- A job that has not ended is as well off if it is known to be awake. -/
theorem Sound.awake {printed : Nat → List String} (h : Sound printed w.ready w) :
    Sound printed w.awake w := by
  obtain ⟨log, hworld, hfits⟩ := h
  refine ⟨log, hworld, ?_⟩
  intro r job hjob
  cases hended : w.hasEnded r with
  | true =>
    obtain ⟨job', hjob', hs⟩ := hasEnded_iff.mp hended
    obtain rfl : job' = job := Option.some.inj (hjob'.symm.trans hjob)
    have hfit := hfits r job' hjob
    rw [hs] at hfit ⊢
    exact hfit
  | false => exact (hfits r job hjob).wake fun hr => List.mem_filter.mpr ⟨hr, by simp [hended]⟩

/-- **The owner of a stale process has ended, or is awake and about to.** -/
theorem Sound.hasEnded_or_awake {printed : Nat → List String} (h : Sound printed w.ready w) {p : Nat}
    {q : Process} (hq : w.sandbox.processes[p]? = some q) (hc : w.slot.isCancelled q.owner = true) :
    w.hasEnded q.owner = true ∨ q.owner ∈ w.awake := by
  obtain ⟨log, hworld, hfits⟩ := h.awake
  obtain ⟨job, hjob⟩ : ∃ job, w.jobs[q.owner]? = some job :=
    ⟨_, List.getElem?_eq_getElem (hworld.owners p q hq)⟩
  have howns : (w.view log q.owner).owns p = some q := owned_eq_some.mpr ⟨hq, rfl⟩
  have hc' : (w.view log q.owner).isCancelled = true := hc
  have hunspawned : ¬ (w.view log q.owner).Unspawned := fun hv => by simp [hv.owns p] at howns
  have hfit := hfits q.owner job hjob
  cases hs : job.stage with
  | ended => exact .inl (hasEnded_iff.mpr ⟨job, hjob, hs⟩)
  | fresh source =>
    rw [hs] at hfit
    exact .inr hfit.2
  | writing part entry =>
    rw [hs] at hfit
    exact absurd hfit.1 hunspawned
  | spawning =>
    rw [hs] at hfit
    exact absurd hfit.1 hunspawned
  | reading p' reader batcher nextFlush =>
    rw [hs] at hfit
    obtain ⟨q', -, -, hwait⟩ := hfit
    exact .inr (hwait.resolve_right fun hw => by simp [hc'] at hw)
  | awaiting p' reader batcher =>
    rw [hs] at hfit
    obtain ⟨q', -, -, -, -, hwait⟩ := hfit
    exact .inr (hwait.resolve_right fun hw => by simp [hc'] at hw)

/-! ## Worlds that nobody can tell apart -/

/-- Two worlds are alike but for some stale processes, and the same jobs are awake. -/
structure Paired (ps : List Nat) (w w' : Supervision) : Prop where
  alike : Supervision.Alike ps w w'
  awake : w'.awake = w.awake

namespace Paired

theorem symm (h : Paired ps w w') : Paired ps w' w := ⟨h.alike.symm, h.awake.symm⟩

theorem hasEnded_eq (h : Paired ps w w') (run : Nat) : w'.hasEnded run = w.hasEnded run :=
  hasEnded_congr h.alike.jobs run

/-- What is neither about jobs nor about what has been woken. -/
theorem of_alike (h : Paired ps w w') {v v' : Supervision} (halike : Supervision.Alike ps v v')
    (hready : v.ready = w.ready) (hjobs : v.jobs = w.jobs) (hready' : v'.ready = w'.ready)
    (hjobs' : v'.jobs = w'.jobs) : Paired ps v v' := by
  refine ⟨halike, ?_⟩
  rw [awake_congr hready (hasEnded_congr hjobs), awake_congr hready' (hasEnded_congr hjobs')]
  exact h.awake

/-- To wake a job in one of them that has ended or is awake is of no account. -/
theorem wake_left (h : Paired ps w w') {run : Nat} (hrun : w.hasEnded run = true ∨ run ∈ w.awake) :
    Paired ps (w.wake run) w' := by
  refine ⟨h.alike.wake_left run, ?_⟩
  rw [awake_wake, if_pos hrun]
  exact h.awake

theorem wake (h : Paired ps w w') (run : Nat) : Paired ps (w.wake run) (w'.wake run) := by
  refine ⟨((h.alike.wake_left run).symm.wake_left run).symm, ?_⟩
  rw [awake_wake, awake_wake, h.awake, h.hasEnded_eq]

theorem foldl_wake (h : Paired ps w w') (runs : List Nat) :
    Paired ps (runs.foldl Supervision.wake w) (runs.foldl Supervision.wake w') := by
  induction runs generalizing w w' with
  | nil => exact h
  | cons run runs ih => exact ih (h.wake run)

theorem wakeActive (h : Paired ps w w') : Paired ps w.wakeActive w'.wakeActive := by
  rw [Supervision.wakeActive, Supervision.wakeActive, h.alike.slot, h.alike.jobs]
  cases w.slot.active with
  | none => exact h
  | some run =>
    dsimp only
    cases w.jobs[run]? with
    | none => exact h
    | some job =>
      dsimp only
      split
      · exact h
      · exact h.wake run

/-! ## What happens in both -/

/-- **Jobs that go on in both keep them alike.** -/
theorem settle (h : Paired ps w w') {printed : Nat → List String} (hw : Sound printed w.ready w) :
    Paired ps (Supervision.settle workshop w) (Supervision.settle workshop w') := by
  have hfold : ∀ (runs : List Nat) {w w' : Supervision}, Supervision.Alike ps w w' →
      Sound printed runs w → Supervision.Alike ps (runs.foldl (resume workshop) w)
        (runs.foldl (resume workshop) w') := by
    intro runs
    induction runs with
    | nil => exact fun h _ => h
    | cons run runs ih => exact fun h hw => ih (h.resume hw) hw.resume
  have hawake : Sound printed w.awake { w with ready := [] } :=
    hw.awake.congr rfl rfl rfl (fun _ => rfl) fun _ => id
  have hhalted : Supervision.Alike ps { w with ready := [] } { w' with ready := [] } :=
    ⟨h.alike.slot, h.alike.jobs, h.alike.now, h.alike.sandbox, h.alike.stale⟩
  refine ⟨?_, ?_⟩
  · rw [settle_eq_foldl_awake, settle_eq_foldl_awake, h.awake]
    exact hfold w.awake hhalted hawake
  · rw [Supervision.awake, Supervision.awake, ready_settle, ready_settle]
    rfl

theorem elapse (h : Paired ps w w') (ms : Nat) (hready : w.ready = []) (hready' : w'.ready = []) :
    Paired ps (Supervision.elapse workshop w ms) (Supervision.elapse workshop w' ms) := by
  refine ⟨h.alike.elapse ms, ?_⟩
  rw [Supervision.awake, Supervision.awake, ready_elapse, ready_elapse, hready, hready']
  rfl

/-- A run that is killed in both has been told to end in both. -/
theorem isCancelled_killActive_of {s : Slot} {run : Nat} (h : s.isCancelled run = true) :
    s.killActive.isCancelled run = true := by
  rw [Slot.isCancelled_killActive, h, Bool.true_or]

theorem stop (h : Paired ps w w') :
    Paired ps { w.wakeActive with slot := w.wakeActive.slot.stop }
      { w'.wakeActive with slot := w'.wakeActive.slot.stop } :=
  h.wakeActive.of_alike (h.wakeActive.alike.slot_map fun _ => isCancelled_killActive_of) rfl rfl rfl rfl

/-- A run that is started in both is awake in both. -/
theorem awake_start (w : Supervision) (source text : String) (matchLines : Bool)
    (environment : Environment) :
    (w.start source text matchLines environment).awake = w.wakeActive.awake ++ [w.jobs.length] := by
  have hended : ∀ r, (w.start source text matchLines environment).hasEnded r =
      w.wakeActive.hasEnded r := fun r => by
    simp only [hasEnded, Supervision.start, List.getElem?_append, List.getElem?_singleton]
    split
    · rfl
    · rename_i hr
      rw [List.getElem?_eq_none (Nat.le_of_not_lt hr)]
      split <;> rfl
  have hnew : w.wakeActive.hasEnded w.jobs.length = false := by simp [hasEnded]
  rw [Supervision.awake, funext hended]
  simp [Supervision.start, Supervision.awake, hnew]

theorem start (h : Paired ps w w') (source text : String) (matchLines : Bool)
    (environment : Environment) :
    Paired ps (w.start source text matchLines environment)
      (w'.start source text matchLines environment) := by
  have hactive := h.wakeActive
  refine ⟨⟨?_, ?_, hactive.alike.now, hactive.alike.sandbox, fun p hp => ?_⟩, ?_⟩
  · simp only [Supervision.start, hactive.alike.slot]
  · simp only [Supervision.start, hactive.alike.slot, hactive.alike.jobs]
  · obtain ⟨run, howner, hstale⟩ := hactive.alike.stale p hp
    refine ⟨run, howner, ?_⟩
    simp only [Supervision.start]
    rw [Slot.isCancelled_start]
    exact isCancelled_killActive_of hstale
  · rw [awake_start, awake_start, hactive.awake, h.alike.jobs]

/-! ## What stale processes are told -/

/-- **What a stale process is told in one of them is of no account.** -/
theorem left (h : Paired ps w w') {printed : Nat → List String} (hw : Sound printed w.ready w)
    {action : Action} {p : Nat} (ha : action.addressee? = some p) (hp : p ∈ ps) :
    Paired ps (perform workshop w action).2 w' := by
  cases hq : w.sandbox.controlled? p with
  | none =>
    rw [perform_of_uncontrolled ha hq]
    exact h
  | some q =>
    rw [perform_of_controlled ha hq]
    have hprocess := ((w.sandbox.controlled?_eq_some p).mp hq).1
    obtain ⟨run, howner, hstale⟩ := h.alike.stale p hp
    obtain rfl : q.owner = run := by simpa [hprocess] using howner
    have halike : Supervision.Alike ps
        { w with sandbox := w.sandbox.modifyProcess p action.effect } w' := by
      refine ⟨h.alike.slot, h.alike.jobs, h.alike.now,
        h.alike.sandbox.modify_left hp action.owner_effect, ?_⟩
      rw [Script.modifyProcess, map_modify_of_eq action.owner_effect]
      exact h.alike.stale
    have hpaired : Paired ps { w with sandbox := w.sandbox.modifyProcess p action.effect } w' :=
      h.of_alike halike rfl rfl rfl rfl
    exact hpaired.wake_left (hw.hasEnded_or_awake hprocess hstale)

theorem right (h : Paired ps w w') {printed : Nat → List String} (hw' : Sound printed w'.ready w')
    {action : Action} {p : Nat} (ha : action.addressee? = some p) (hp : p ∈ ps) :
    Paired ps w (perform workshop w' action).2 :=
  (h.symm.left hw' ha hp).symm

/-- **Whatever is done in both keeps them alike.** -/
theorem act (h : Paired ps w w') {printed printed' : Nat → List String} (hw : Sound printed w.ready w)
    (hw' : Sound printed' w'.ready w') (action : Action) :
    Paired ps (perform workshop w action).2 (perform workshop w' action).2 := by
  have hquiet : ∀ {s s' : Script}, Script.Alike ps s s' → s.processes = w.sandbox.processes →
      Paired ps { w with sandbox := s } { w' with sandbox := s' } := fun hs hprocesses =>
    h.of_alike (h.alike.with_sandbox hs fun p run howner => by rwa [hprocesses]) rfl rfl rfl rfl
  cases ha : action.addressee? with
  | some p =>
    by_cases hp : p ∈ ps
    · -- a process in which the worlds may differ
      exact (h.left hw ha hp).right hw' ha hp
    · -- any other process
      have hcontrolled := h.alike.sandbox.controlled?_eq hp
      cases hq : w.sandbox.controlled? p with
      | none =>
        rw [perform_of_uncontrolled ha hq, perform_of_uncontrolled ha (hcontrolled.trans hq)]
        exact h
      | some q =>
        rw [perform_of_controlled ha hq, perform_of_controlled ha (hcontrolled.trans hq)]
        exact (h.of_alike (h.alike.modifyProcess p action.owner_effect) rfl rfl rfl rfl).wake q.owner
  | none =>
    cases action with
    | start source text matchLines environment => exact h.start source text matchLines environment
    | stop => exact h.stop
    | clear => exact h.of_alike (h.alike.slot_map (f := Slot.clear) fun _ hc => hc) rfl rfl rfl rfl
    | subscribe =>
      exact h.of_alike (h.alike.slot_map (f := Slot.subscribe) fun _ hc => hc) rfl rfl rfl rfl
    | unsubscribe subscriber =>
      exact h.of_alike (h.alike.slot_map (f := fun s => s.unsubscribe subscriber) fun _ hc => hc)
        rfl rfl rfl rfl
    | emit p chunk => cases ha
    | exit p code => cases ha
    | lose p => cases ha
    | hold point => exact hquiet (h.alike.sandbox.modifyGate point _) (Script.processes_hold ..)
    | release point =>
      have hreleased : Paired ps { w with sandbox := w.sandbox.release point }
          { w' with sandbox := w'.sandbox.release point } :=
        hquiet (h.alike.sandbox.modifyGate point _) (Script.processes_release ..)
      simp only [perform, h.alike.sandbox.gate_eq]
      exact hreleased.foldl_wake _
    | failWrite reason => exact hquiet (h.alike.sandbox.failWrite reason) rfl
    | failSpawn reason => exact hquiet (h.alike.sandbox.failSpawn reason) rfl
    | advance ms => exact (h.settle hw).elapse ms (ready_settle w) (ready_settle w')

/-- A process may be told different things from when it is stale. -/
theorem mark (h : Paired ps w w') {p : Nat} {q : Process} (hq : w.sandbox.processes[p]? = some q)
    (hc : w.slot.isCancelled q.owner = true) : Paired (p :: ps) w w' := by
  refine ⟨⟨h.alike.slot, h.alike.jobs, h.alike.now, h.alike.sandbox.mono (List.subset_cons_self p ps),
    fun p' hp' => ?_⟩, h.awake⟩
  rcases List.mem_cons.mp hp' with rfl | hp'
  · exact ⟨q.owner, by simp [hq], hc⟩
  · exact h.alike.stale p' hp'

end Paired

/-! ## Twins -/

/-- A process is stale when its run has been told to end. -/
def Supervision.IsStale (w : Supervision) (p : Nat) : Prop :=
  ∃ q, w.sandbox.processes[p]? = some q ∧ w.slot.isCancelled q.owner = true

/-- Two worlds in which the same has happened, except that stale processes were told to print or to end
in one of them when they were not in the other. These processes are listed. A stale process that is told
one thing in one world and another in the other is told each in turn. Both worlds settle at the same
turns, and a world that has nothing left to do settles at no cost. -/
inductive Twins (workshop : Workshop) : List Nat → Supervision → Supervision → Prop
  | initial : Twins workshop [] initial initial
  | both {ps : List Nat} {w w' : Supervision} (t : Turn) (h : Twins workshop ps w w') :
    Twins workshop ps (turn workshop w t) (turn workshop w' t)
  | left {ps : List Nat} {w w' : Supervision} {action : Action} {p : Nat} (h : Twins workshop ps w w')
    (ha : action.addressee? = some p) (hp : w.IsStale p) :
    Twins workshop (p :: ps) (turn workshop w (.act action)) w'
  | right {ps : List Nat} {w w' : Supervision} {action : Action} {p : Nat} (h : Twins workshop ps w w')
    (ha : action.addressee? = some p) (hp : w'.IsStale p) :
    Twins workshop (p :: ps) w (turn workshop w' (.act action))

namespace Twins

/-- The same may go on to happen to twins. -/
theorem foldl_both (h : Twins workshop ps w w') (turns : List Turn) :
    Twins workshop ps (turns.foldl (turn workshop) w) (turns.foldl (turn workshop) w') := by
  induction turns generalizing w w' with
  | nil => exact h
  | cons t turns ih => exact ih (h.both t)

/-- Twins have histories. -/
theorem exists_histories (h : Twins workshop ps w w') :
    ∃ turns turns', w = after workshop turns ∧ w' = after workshop turns' := by
  induction h with
  | initial => exact ⟨[], [], rfl, rfl⟩
  | both t h ih =>
    obtain ⟨turns, turns', rfl, rfl⟩ := ih
    exact ⟨turns ++ [t], turns' ++ [t], by simp, by simp⟩
  | @left _ _ _ action _ h ha hp ih =>
    obtain ⟨turns, turns', rfl, rfl⟩ := ih
    exact ⟨turns ++ [.act action], turns', by simp, rfl⟩
  | @right _ _ _ action _ h ha hp ih =>
    obtain ⟨turns, turns', rfl, rfl⟩ := ih
    exact ⟨turns, turns' ++ [.act action], rfl, by simp⟩

/-- All is well with twins. -/
theorem exists_sound (h : Twins workshop ps w w') :
    ∃ printed printed', Sound printed w.ready w ∧ Sound printed' w'.ready w' := by
  obtain ⟨turns, turns', rfl, rfl⟩ := h.exists_histories
  exact ⟨_, _, sound_after workshop turns, sound_after workshop turns'⟩

/-- Twins are alike but for the processes that were told different things. -/
theorem paired (h : Twins workshop ps w w') : Paired ps w w' := by
  induction h with
  | initial => exact ⟨.refl _, rfl⟩
  | both t h ih =>
    obtain ⟨printed, printed', hw, hw'⟩ := h.exists_sound
    cases t with
    | act action => exact ih.act hw hw' action
    | settle => exact ih.settle hw
  | left h ha hp ih =>
    obtain ⟨printed, -, hw, -⟩ := h.exists_sound
    obtain ⟨q, hq, hc⟩ := hp
    exact (ih.mark hq hc).left hw ha List.mem_cons_self
  | right h ha hp ih =>
    obtain ⟨-, printed', -, hw'⟩ := h.exists_sound
    obtain ⟨q, hq, hc⟩ := hp
    exact (ih.symm.mark hq hc).symm.right hw' ha List.mem_cons_self

end Twins

/-- **A run that has been told to end influences nothing**, at any moment of a history. Whatever processes
of such runs print and however they end, the slot and all that subscribers have received is the same, and
so are the files, the programs that were started, and every other process, killed or not. -/
theorem twins_agree (h : Twins workshop ps w w') :
    w'.slot = w.slot ∧ w'.sandbox.files = w.sandbox.files ∧ w'.sandbox.launches = w.sandbox.launches ∧
      ∀ p, p ∉ ps → w'.sandbox.processes[p]? = w.sandbox.processes[p]? := by
  have halike := h.paired.alike
  refine ⟨halike.slot, ?_, ?_, fun p hp => halike.sandbox.processes_eq hp⟩
  · obtain ⟨processes, hs, -⟩ := halike.sandbox
    rw [hs]
  · obtain ⟨processes, hs, -⟩ := halike.sandbox
    rw [hs]

/-- A run is stopped, and its process prints a line in one world and ends in the other before the run
notices. The next run is started and prints in both. -/
theorem twins_agree_stopped :
    let workshop : Workshop := ⟨⟨50, 2, "node", "main.mjs"⟩, fun source => .ok source⟩
    let stopped := after workshop [.act (.start "a" "x" false .empty), .settle, .act .stop]
    let next : List Turn :=
      [.settle, .act (.start "b" "y" false .empty), .settle, .act (.emit 1 "z\n"), .settle]
    let w := next.foldl (turn workshop) (turn workshop stopped (.act (.emit 0 "late\n")))
    let w' := next.foldl (turn workshop) (turn workshop stopped (.act (.exit 0 7)))
    Twins workshop [0, 0] w w' ∧ w.sandbox.processes[0]? ≠ w'.sandbox.processes[0]? ∧
      w'.slot = w.slot ∧ w'.sandbox.files = w.sandbox.files ∧
      w'.sandbox.launches = w.sandbox.launches ∧
      ∀ p, p ∉ [0, 0] → w'.sandbox.processes[p]? = w.sandbox.processes[p]? := by
  intro workshop stopped next w w'
  have hstopped : Twins workshop [] stopped stopped := Twins.initial.foldl_both _
  have hstale : stopped.IsStale 0 :=
    ⟨⟨0, [], .alive, false, true⟩, by decide +kernel, by decide +kernel⟩
  have hprinted : (Action.emit 0 "late\n").addressee? = some 0 := rfl
  have hexited : (Action.exit 0 7).addressee? = some 0 := rfl
  have hnext : Twins workshop [0, 0] w w' :=
    ((hstopped.left hprinted hstale).right hexited hstale).foldl_both next
  have htold : w.sandbox.processes[0]? ≠ w'.sandbox.processes[0]? := by decide +kernel
  exact ⟨hnext, htold, twins_agree hnext⟩

end Scratchpad.Run
