import Scratchpad.Proofs.Run.Soundness

/-!
# What is done from outside

What is done from outside wakes whoever waits for it: a run that is killed wakes unless its program is
being started, a process wakes its owner, and a gate that is released wakes all that wait there. So all
stays well with every run, and all is well after any history.

## Main definitions

* `View.kill`: the view of a run that is killed.
* `Action.addressee?`, `Action.effect`: the process that is told what to do, and what becomes of it.

## Main statements

* `Fits.kill`, `Fits.happens`, `Fits.release`: a run that is killed, whose process does something, or whom
  a gate lets pass fits its stage again.
* `Sound.act`, `Sound.turn`: what is done from outside and what jobs do keeps all well.
* `sound_after`: all is well after any history.
-/

namespace Scratchpad.Run

open Log Sandbox Supervision

variable {workshop : Workshop} {printed : Nat → List String} {woken : List Nat} {w : Supervision}
  {matchLines : Bool} {run : Nat} {v : View} {isWoken : Prop} {stage : Stage}

/-! ## Who is woken -/

section Wake

@[simp] theorem slot_wake (w : Supervision) (run : Nat) : (w.wake run).slot = w.slot := by
  rw [wake]
  split <;> rfl

@[simp] theorem sandbox_wake (w : Supervision) (run : Nat) : (w.wake run).sandbox = w.sandbox := by
  rw [wake]
  split <;> rfl

@[simp] theorem jobs_wake (w : Supervision) (run : Nat) : (w.wake run).jobs = w.jobs := by
  rw [wake]
  split <;> rfl

@[simp] theorem now_wake (w : Supervision) (run : Nat) : (w.wake run).now = w.now := by
  rw [wake]
  split <;> rfl

@[simp] theorem mem_ready_wake {r : Nat} : r ∈ (w.wake run).ready ↔ r ∈ w.ready ∨ r = run := by
  rw [wake]
  split
  · rename_i hmem
    have hrun : run ∈ w.ready := by simpa using hmem
    refine ⟨.inl, ?_⟩
    rintro (hr | rfl)
    · exact hr
    · exact hrun
  · simp

/-- To wake some runs is to change nothing else. -/
theorem foldl_wake (runs : List Nat) (w : Supervision) :
    (runs.foldl wake w).slot = w.slot ∧ (runs.foldl wake w).sandbox = w.sandbox ∧
      (runs.foldl wake w).jobs = w.jobs ∧
      ∀ r, r ∈ (runs.foldl wake w).ready ↔ r ∈ w.ready ∨ r ∈ runs := by
  induction runs generalizing w with
  | nil => simp
  | cons run runs ih =>
    obtain ⟨hslot, hsandbox, hjobs, hready⟩ := ih (w.wake run)
    refine ⟨hslot.trans (slot_wake w run), hsandbox.trans (sandbox_wake w run),
      hjobs.trans (jobs_wake w run), fun r => ?_⟩
    rw [List.foldl_cons, hready, mem_ready_wake, List.mem_cons, or_assoc]

@[simp] theorem jobs_withProcess (w : Supervision) (p : Nat) (s' : Option Script) :
    (w.withProcess p s').2.jobs = w.jobs := by
  simp only [withProcess]
  split <;> simp

theorem wakeActive_eq (w : Supervision) : w.wakeActive = w ∨ ∃ run, w.wakeActive = w.wake run := by
  rw [wakeActive]
  split
  · exact .inl rfl
  · split
    · exact .inl rfl
    · split
      · exact .inl rfl
      · exact .inr ⟨_, rfl⟩

/-- The active run is woken unless its program is being started. -/
theorem mem_ready_wakeActive (ha : w.slot.active = some run) {job : Job} (hjob : w.jobs[run]? = some job)
    (hs : job.stage ≠ .spawning) : run ∈ w.wakeActive.ready := by
  have heq : w.wakeActive = w.wake run := by
    rw [wakeActive, ha]
    dsimp only
    rw [hjob]
    dsimp only
    split
    · exact absurd ‹_› hs
    · rfl
  rw [heq]
  exact mem_ready_wake.mpr (.inr rfl)

@[simp] theorem slot_wakeActive (w : Supervision) : w.wakeActive.slot = w.slot := by
  rcases wakeActive_eq w with heq | ⟨run, heq⟩ <;> simp [heq]

@[simp] theorem sandbox_wakeActive (w : Supervision) : w.wakeActive.sandbox = w.sandbox := by
  rcases wakeActive_eq w with heq | ⟨run, heq⟩ <;> simp [heq]

@[simp] theorem jobs_wakeActive (w : Supervision) : w.wakeActive.jobs = w.jobs := by
  rcases wakeActive_eq w with heq | ⟨run, heq⟩ <;> simp [heq]

@[simp] theorem now_wakeActive (w : Supervision) : w.wakeActive.now = w.now := by
  rcases wakeActive_eq w with heq | ⟨run, heq⟩ <;> simp [heq]

theorem mem_ready_wakeActive_of_mem {r : Nat} (hr : r ∈ w.ready) : r ∈ w.wakeActive.ready := by
  rcases wakeActive_eq w with heq | ⟨run, heq⟩ <;> simp [heq, hr]

end Wake

/-! ## Runs that are killed -/

/-- The view of a run that is killed if it has the slot. -/
def View.kill (run : Nat) (v : View) : View :=
  if v.phase.isSome then
    { v with
      phase := none
      isCancelled := true
      told := v.told ++ [.finished run .killed] }
  else v

/-- A run that is killed fits its stage if it is woken, unless its program is being started. -/
theorem Fits.kill {isWoken' : Prop} (h : Fits printed matchLines run v isWoken stage)
    (hwoken : isWoken → isWoken') (hkilled : v.phase.isSome → stage ≠ .spawning → isWoken') :
    Fits printed matchLines run (v.kill run) isWoken' stage := by
  rw [View.kill]
  split
  · rename_i hphase
    cases stage with
    | fresh source => exact ⟨⟨h.1.owns, nofun⟩, hkilled hphase nofun⟩
    | writing part entry => exact ⟨⟨h.1.owns, nofun⟩, .inl (hkilled hphase nofun)⟩
    | spawning => exact ⟨⟨h.1.owns, nofun⟩, h.2.imp_left hwoken⟩
    | reading p reader batcher nextFlush =>
      obtain ⟨q, hq, -, -⟩ := h
      exact ⟨q, hq.of_owns_eq rfl, nofun, .inl (hkilled hphase nofun)⟩
    | awaiting p reader batcher =>
      obtain ⟨q, hq, -, hcontrol, hunread, -⟩ := h
      exact ⟨q, hq.of_owns_eq rfl, nofun, hcontrol, hunread, .inl (hkilled hphase nofun)⟩
    | ended =>
      have hnone : v.phase = none := h.phase
      simp [hnone] at hphase
  · exact h.wake hwoken

/-- A kill changes the views of runs as it changes the slot. -/
theorem view_killActive {log : List (Event Nat Entry)} (h : World printed log w) {r : Nat}
    (hr : r < w.jobs.length) {w' : Supervision} (hsandbox : w'.sandbox = w.sandbox)
    (hactive : w'.slot.active ≠ some r)
    (hc : w'.slot.isCancelled r = w.slot.killActive.isCancelled r) {log' : List (Event Nat Entry)}
    (hlog : Slot.ofRun r log' = Slot.ofRun r (log ++ w.slot.toldKill)) :
    w'.view log' r = (w.view log r).kill r := by
  have hhandle : w.slot.handles[r]?.isSome = true := by simpa [← h.length_jobs] using hr
  rw [Slot.ofRun_append] at hlog
  rw [View.kill]
  simp only [Supervision.isSome_phase_view]
  split
  · rename_i ha
    have htold : Slot.ofRun r w.slot.toldKill = [.finished r .killed] := by
      simp [Slot.toldKill, ha, Slot.ofRun, Event.run]
    simp [Supervision.view, hsandbox, hactive, hc, Slot.isCancelled_killActive, hhandle, ha, hlog, htold]
  · rename_i ha
    have htold : Slot.ofRun r w.slot.toldKill = [] := by
      cases hs : w.slot.active with
      | none => simp [Slot.toldKill, hs, Slot.ofRun]
      | some active =>
        have hne : active ≠ r := fun heq => ha (by rw [hs, heq])
        simp [Slot.toldKill, hs, Slot.ofRun, Event.run, hne]
    simp [Supervision.view, hsandbox, hactive, hc, Slot.isCancelled_killActive, ha, hlog, htold]

theorem Sound.stop (h : Sound printed w.ready w) :
    Sound printed w.wakeActive.ready { w.wakeActive with slot := w.wakeActive.slot.stop } := by
  obtain ⟨log, hworld, hfits⟩ := h
  have hmoved : World printed (log ++ w.slot.told .stop) { w with slot := w.slot.stop } :=
    hworld.move rfl
  refine ⟨log ++ w.slot.toldKill, hmoved.congr (by simp) (jobs_wakeActive w) (by simp) (by simp)
    (by simp), fun r job hjob => ?_⟩
  replace hjob : w.jobs[r]? = some job := by simpa using hjob
  have hr : r < w.jobs.length := (List.getElem?_eq_some_iff.mp hjob).1
  rw [view_killActive hworld hr (by simp) (by simp [Slot.stop]) (by simp [Slot.stop]) rfl]
  exact (hfits r job hjob).kill mem_ready_wakeActive_of_mem fun hphase hs =>
    mem_ready_wakeActive ((w.isSome_phase_view log r).mp hphase) hjob hs

/-! ## Runs that are started -/

section Start

variable (source text : String) (matchLines : Bool) (environment : Environment)

@[simp] theorem slot_start (w : Supervision) :
    (w.start source text matchLines environment).slot = w.slot.start source := by
  simp [Supervision.start]

@[simp] theorem sandbox_start (w : Supervision) :
    (w.start source text matchLines environment).sandbox = w.sandbox := by
  simp [Supervision.start]

/-- A run that is started adds its job to the others. -/
theorem jobs_start_cases {r : Nat} {job : Job}
    (hjob : (w.start source text matchLines environment).jobs[r]? = some job) :
    w.jobs[r]? = some job ∨
      r = w.jobs.length ∧
        job = ⟨(w.slot.start source).generation, matchLines, environment, .fresh text⟩ := by
  simp only [Supervision.start, jobs_wakeActive, slot_wakeActive, List.getElem?_append,
    List.getElem?_singleton] at hjob
  split at hjob
  · exact .inl hjob
  · split at hjob
    · exact .inr ⟨by omega, (Option.some.inj hjob).symm⟩
    · cases hjob

theorem World.start {log : List (Event Nat Entry)} (h : World printed log w) :
    World printed (log ++ w.slot.told (.start source)) (w.start source text matchLines environment) := by
  constructor
  case slot =>
    obtain ⟨moves, hslot, rfl⟩ := h.slot
    refine ⟨moves ++ [.start source], ?_, by simp [hslot]⟩
    simp [hslot, Slot.move]
  case generations => simp [Supervision.start, Slot.start, h.generations]
  case gates => simpa using h.gates
  case owners =>
    intro p q hq
    have hlt := h.owners p q (by simpa using hq)
    simp only [Supervision.start, List.length_append, List.length_singleton, jobs_wakeActive]
    omega
  case unspawned => simpa using h.unspawned

/-- A run that has just been started has no process, and nothing has been told of it but its start. -/
theorem World.unspawned_start {log : List (Event Nat Entry)} (h : World printed log w) :
    ((w.start source text matchLines environment).view (log ++ w.slot.told (.start source))
      w.jobs.length).Unspawned := by
  have hn : w.jobs.length = w.slot.handles.length := h.length_jobs
  refine ⟨fun p => ?_, fun _ => ⟨?_, ?_⟩⟩
  · rw [Supervision.view, sandbox_start]
    exact h.owned_eq_none (Nat.le_refl _) p
  · simp [Supervision.view, hn]
  · rw [Supervision.view, Slot.ofRun_append, h.ofRun_eq_nil (Nat.le_refl _), Slot.told, Slot.toldKill]
    cases ha : w.slot.active with
    | none => simp [hn, Slot.ofRun, Event.run, delivered, Event.items]
    | some active =>
      by_cases hactive : active = w.jobs.length <;>
        simp [hn, hactive, Slot.ofRun, Event.run, delivered, Event.items]

/-- **A run that is started kills the run that has the slot**, and all stays well. -/
theorem Sound.start (h : Sound printed w.ready w) :
    Sound printed (w.start source text matchLines environment).ready
      (w.start source text matchLines environment) := by
  obtain ⟨log, hworld, hfits⟩ := h
  have hn : w.jobs.length = w.slot.handles.length := hworld.length_jobs
  refine ⟨_, hworld.start source text matchLines environment, ?_⟩
  intro r job hjob
  rcases jobs_start_cases source text matchLines environment hjob with hjob | ⟨rfl, rfl⟩
  · -- a run that was there before
    have hr : r < w.jobs.length := (List.getElem?_eq_some_iff.mp hjob).1
    have htold : Slot.ofRun r [.started w.slot.handles.length source] = [] := by
      have hne : w.slot.handles.length ≠ r := by omega
      simp [Slot.ofRun, Event.run, hne]
    have hactive : (w.slot.start source).active ≠ some r := by
      rw [Slot.active_start, ← hn, ne_eq, Option.some.injEq]
      omega
    rw [view_killActive hworld hr (sandbox_start ..) (by rwa [slot_start])
      (by rw [slot_start, Slot.isCancelled_start]) (by simp [Slot.told, htold])]
    refine (hfits r job hjob).kill (fun hmem => ?_) fun hphase hs => ?_
    · exact List.mem_append_left _ (mem_ready_wakeActive_of_mem hmem)
    · have ha := (w.isSome_phase_view log r).mp hphase
      exact List.mem_append_left _ (mem_ready_wakeActive ha hjob hs)
  · exact ⟨hworld.unspawned_start source text matchLines environment, by simp [Supervision.start]⟩

end Start

/-! ## Processes that are told what to do -/

section Addressed

variable {action : Action} {p : Nat}

/-- The process that is told what to do. -/
def Action.addressee? : Action → Option Nat
  | .emit p _ | .exit p _ | .lose p => some p
  | _ => none

/-- What becomes of the process that is told what to do. -/
def Action.effect : Action → Process → Process
  | .emit _ chunk, q => if q.isAttended then { q with unread := q.unread ++ [chunk] } else q
  | .exit _ code, q => { q with control := .exited code }
  | .lose _, q => { q with control := .lost }
  | _, q => q

theorem Action.owner_effect (action : Action) (q : Process) : (action.effect q).owner = q.owner := by
  cases action with
  | emit p chunk => rw [effect]; split <;> rfl
  | _ => rfl

theorem Action.isAttended_effect (action : Action) (q : Process) :
    (action.effect q).isAttended = q.isAttended := by
  cases action with
  | emit p chunk => rw [effect]; split <;> rfl
  | _ => rfl

theorem Action.isKilled_effect (action : Action) (q : Process) :
    (action.effect q).isKilled = q.isKilled := by
  cases action with
  | emit p chunk => rw [effect]; split <;> rfl
  | _ => rfl

/-- A process that has ended cannot be told what to do. -/
theorem perform_of_uncontrolled (ha : action.addressee? = some p)
    (hq : w.sandbox.controlled? p = none) : (perform workshop w action).2 = w := by
  cases action with
  | emit p' chunk =>
    obtain rfl : p' = p := Option.some.inj ha
    simp [perform, Script.emit?, hq]
  | exit p' code =>
    obtain rfl : p' = p := Option.some.inj ha
    simp [perform, Script.exit?, hq, withProcess]
  | lose p' =>
    obtain rfl : p' = p := Option.some.inj ha
    simp [perform, Script.lose?, hq, withProcess]
  | _ => cases ha

/-- A process that goes on does what it is told, and wakes its owner. -/
theorem perform_of_controlled (ha : action.addressee? = some p) {q : Process}
    (hq : w.sandbox.controlled? p = some q) :
    (perform workshop w action).2 =
      { w with sandbox := w.sandbox.modifyProcess p action.effect }.wake q.owner := by
  have hp := ((w.sandbox.controlled?_eq_some p).mp hq).1
  cases action with
  | emit p' chunk =>
    obtain rfl : p' = p := Option.some.inj ha
    by_cases hattended : q.isAttended
    · have hsame : w.sandbox.modifyProcess p' (fun q => { q with unread := q.unread ++ [chunk] }) =
          w.sandbox.modifyProcess p' (Action.effect (.emit p' chunk)) :=
        Script.modifyProcess_congr hp (by simp [Action.effect, hattended])
      simp [perform, Script.emit?, hq, hattended, withProcess, hp, hsame]
    · -- a process that nobody cares for
      have hsame : w.sandbox.modifyProcess p' (Action.effect (.emit p' chunk)) = w.sandbox :=
        Script.modifyProcess_of_eq hp (by simp [Action.effect, hattended])
      simp [perform, Script.emit?, hq, hattended, withProcess, hp, hsame]
  | exit p' code =>
    obtain rfl : p' = p := Option.some.inj ha
    simp only [perform, Script.exit?, hq, Option.map_some, withProcess, hp]
    rfl
  | lose p' =>
    obtain rfl : p' = p := Option.some.inj ha
    simp only [perform, Script.lose?, hq, Option.map_some, withProcess, hp]
    rfl
  | _ => cases ha

/-- Nobody prints when no process is told what to do. -/
theorem prints_of_unaddressed (ha : action.addressee? = none) (p : Nat) :
    prints p w (.act action) = [] := by
  cases action with
  | emit p' chunk => cases ha
  | _ => rfl

theorem prints_of_uncontrolled (ha : action.addressee? = some p) (hq : w.sandbox.controlled? p = none)
    (p' : Nat) : prints p' w (.act action) = [] := by
  cases action with
  | emit p'' chunk =>
    obtain rfl : p'' = p := Option.some.inj ha
    exact if_neg fun hc => by simp [hq] at hc
  | _ => rfl

/-- Only the process that is told to print prints. -/
theorem prints_of_ne (ha : action.addressee? = some p) {p' : Nat} (hp : p' ≠ p) :
    prints p' w (.act action) = [] := by
  cases action with
  | emit p'' chunk =>
    obtain rfl : p'' = p := Option.some.inj ha
    exact if_neg fun hc => hp hc.1.symm
  | _ => rfl

/-- What a process prints is kept until its run reads it, if its run still cares. -/
theorem unread_effect (ha : action.addressee? = some p) {q : Process}
    (hq : w.sandbox.controlled? p = some q) (hattended : q.isAttended = true) :
    (action.effect q).unread = q.unread ++ prints p w (.act action) := by
  cases action with
  | emit p' chunk =>
    obtain rfl : p' = p := Option.some.inj ha
    simp [Action.effect, prints, hattended, hq]
  | exit p' code => exact (List.append_nil _).symm
  | lose p' => exact (List.append_nil _).symm
  | _ => cases ha

end Addressed

/-! ## Processes that do something -/

/-- What the processes of others print is nothing to a run. -/
theorem Fits.congr_printed (h : Fits printed matchLines run v isWoken stage)
    {printed' : Nat → List String} (hprinted : ∀ p q, v.owns p = some q → printed' p = printed p) :
    Fits printed' matchLines run v isWoken stage := by
  cases stage with
  | fresh source => exact h
  | writing part entry => exact h
  | spawning => exact h
  | reading p reader batcher nextFlush =>
    obtain ⟨q, hq, hflow, hwait⟩ := h
    refine ⟨q, hq, ?_, hwait⟩
    rw [View.Flows, hprinted p q hq.owns]
    exact hflow
  | awaiting p reader batcher =>
    obtain ⟨q, hq, hflow, hrest⟩ := h
    refine ⟨q, hq, ?_, hrest⟩
    rw [View.Flows, hprinted p q hq.owns]
    exact hflow
  | ended =>
    obtain ⟨hphase, hdismissed, hended, hexited, hlost⟩ := h
    refine ⟨hphase, hdismissed, hended, fun hc p q code hq => ?_, fun hc p q hq => ?_⟩
    · rw [hprinted p q hq]
      exact hexited hc p q code hq
    · rw [hprinted p q hq]
      exact hlost hc p q hq

/-- **A run that is woken when its process does something fits its stage again.** The process went on
until then. It may have printed something, and it may have ended. -/
theorem Fits.happens (h : Fits printed matchLines run v isWoken stage) {p : Nat} {q q' : Process}
    (hq : v.owns p = some q) (halive : q.control = .alive) (hattended : q'.isAttended = q.isAttended)
    (hkilled : q'.isKilled = q.isKilled) {chunks : List String}
    (hunread : q.isAttended = true → q'.unread = q.unread ++ chunks) {isWoken' : Prop}
    (hwoken : isWoken') {printed' : Nat → List String} (hprinted : printed' p = printed p ++ chunks) :
    Fits printed' matchLines run (v.withProcess p q') isWoken' stage := by
  cases stage with
  | fresh source => exact absurd hq (by simp [h.1.owns p])
  | writing part entry => exact absurd hq (by simp [h.1.owns p])
  | spawning => exact absurd hq (by simp [h.1.owns p])
  | reading p₀ reader batcher nextFlush =>
    obtain ⟨q₀, hq₀, hflow, -⟩ := h
    obtain ⟨rfl, rfl⟩ := hq₀.eq_of_owns hq
    refine ⟨q', hq₀.withProcess (hattended.trans hq₀.isAttended) (hkilled.trans hq₀.isKilled),
      fun hc => ?_, .inl hwoken⟩
    obtain ⟨hphase, read, hread, hfed⟩ := hflow hc
    refine ⟨hphase, read, ?_, hfed⟩
    rw [hprinted, hread, hunread hq₀.isAttended, List.append_assoc]
  | awaiting p₀ reader batcher =>
    obtain ⟨q₀, hq₀, -, hcontrol, -, -⟩ := h
    obtain ⟨rfl, rfl⟩ := hq₀.eq_of_owns hq
    exact absurd halive hcontrol
  | ended =>
    have hover : v.Over printed matchLines run := h
    have hc : v.isCancelled = true := by
      rw [← Bool.not_eq_false]
      exact fun hc => hover.ended hc p q hq halive
    refine View.over_of_cancelled hover.phase hc ?_
    intro p' q'' hq''
    by_cases hp : p' = p
    · obtain rfl : q' = q'' := by simpa [hp] using hq''
      obtain ⟨hdismissed, hdead⟩ := hover.dismissed p q hq
      exact ⟨hattended.trans hdismissed, fun _ => hkilled.trans (hdead halive)⟩
    · rw [View.owns_withProcess_of_ne _ _ hp] at hq''
      exact hover.dismissed p' q'' hq''

/-- What a process does is part of the world if it keeps its owner and has been started. -/
theorem World.happens {log : List (Event Nat Entry)} (h : World printed log w) {p : Nat} {q q' : Process}
    (hp : w.sandbox.processes[p]? = some q) (howner : q'.owner = q.owner) {s' : Script}
    (hgate : s'.gate = w.sandbox.gate)
    (hprocesses : ∀ p', s'.processes[p']? = if p' = p then some q' else w.sandbox.processes[p']?)
    {printed' : Nat → List String} (hprinted : ∀ p', p' ≠ p → printed' p' = printed p') :
    World printed' log { w with sandbox := s' } := by
  constructor
  case slot => exact h.slot
  case generations => exact h.generations
  case gates =>
    intro point
    rw [hgate]
    exact h.gates point
  case owners =>
    intro p' q'' hq''
    rw [hprocesses] at hq''
    split at hq''
    · rw [← Option.some.inj hq'', howner]
      exact h.owners p q hp
    · exact h.owners p' q'' hq''
  case unspawned =>
    intro p' hp'
    have hnone := List.getElem?_eq_none hp'
    rw [hprocesses] at hnone
    split at hnone
    · cases hnone
    · rename_i hne
      rw [hprinted p' hne]
      exact h.unspawned p' (List.getElem?_eq_none_iff.mp hnone)

/-- **When a process does something and its owner is woken, all stays well.** -/
theorem Sound.happens (h : Sound printed w.ready w) {p : Nat} {q q' : Process}
    (hq : w.sandbox.controlled? p = some q) (howner : q'.owner = q.owner)
    (hattended : q'.isAttended = q.isAttended) (hkilled : q'.isKilled = q.isKilled)
    {chunks : List String} (hunread : q.isAttended = true → q'.unread = q.unread ++ chunks)
    {s' : Script} (hgate : s'.gate = w.sandbox.gate)
    (hprocesses : ∀ p', s'.processes[p']? = if p' = p then some q' else w.sandbox.processes[p']?)
    {printed' : Nat → List String}
    (hprinted : ∀ p', printed' p' = if p' = p then printed p ++ chunks else printed p') :
    Sound printed' ({ w with sandbox := s' }.wake q.owner).ready ({ w with sandbox := s' }.wake q.owner) := by
  obtain ⟨log, hworld, hfits⟩ := h
  obtain ⟨hp, halive⟩ := (w.sandbox.controlled?_eq_some p).mp hq
  have howned : ∀ r p', owned s' r p' =
      if p' = p ∧ r = q.owner then some q' else owned w.sandbox r p' := fun r p' => by
    rw [owned, owned, hprocesses]
    by_cases hp' : p' = p
    · by_cases hr : r = q.owner
      · simp [hp', hr, howner]
      · have hne : q.owner ≠ r := Ne.symm hr
        simp [hp', hr, hp, Option.filter_some, howner, hne]
    · simp [hp']
  have hworld' : World printed' log { w with sandbox := s' } :=
    hworld.happens hp howner hgate hprocesses fun p' hne => by rw [hprinted, if_neg hne]
  refine ⟨log, hworld'.congr (slot_wake ..) (jobs_wake ..) (by rw [sandbox_wake])
    (fun point => by rw [sandbox_wake]) (fun point => by rw [sandbox_wake]; exact id), fun r job hjob => ?_⟩
  rw [Supervision.view_congr (slot_wake ..) (by rw [sandbox_wake]) fun point => by rw [sandbox_wake]]
  rw [jobs_wake] at hjob
  have hfit := hfits r job hjob
  by_cases hr : r = q.owner
  · -- the owner
    have hview : ({ w with sandbox := s' } : Supervision).view log r = (w.view log r).withProcess p q' := by
      simp only [Supervision.view, View.withProcess, View.mk.injEq, true_and, and_true, hgate]
      funext p'
      rw [howned, Function.update_apply]
      simp [hr]
    rw [hview]
    exact hfit.happens (owned_eq_some.mpr ⟨hp, hr.symm⟩) halive hattended hkilled hunread
      (mem_ready_wake.mpr (.inr hr)) (by simp [hprinted])
  · -- any other run
    have hview : ({ w with sandbox := s' } : Supervision).view log r = w.view log r := by
      simp only [Supervision.view, View.mk.injEq, true_and, and_true, hgate]
      funext p'
      simp [howned, hr]
    rw [hview]
    refine (hfit.congr_printed fun p' q'' hq'' => ?_).wake fun hmem => mem_ready_wake.mpr (.inl hmem)
    obtain ⟨hp', howner'⟩ := owned_eq_some.mp hq''
    rw [hprinted, if_neg]
    rintro rfl
    exact hr (by rw [← howner', Option.some.inj (hp.symm.trans hp')])

/-! ## Gates -/

/-- A run fits its stage again when a gate is released, if the run is woken that waits there. -/
theorem Fits.release (h : Fits printed matchLines run v isWoken stage) {point : Point} {isWoken' : Prop}
    (hwoken : isWoken → isWoken') (hcaller : v.waits point = true → isWoken') :
    Fits printed matchLines run (v.atGate point false) isWoken' stage := by
  have hwaits : ∀ point', v.waits point' = true →
      isWoken' ∨ (v.atGate point false).waits point' = true := fun point' hpoint' => by
    by_cases hpoint : point' = point
    · exact .inl (hcaller (hpoint ▸ hpoint'))
    · exact .inr ((Function.update_of_ne hpoint ..).trans hpoint')
  cases stage with
  | fresh source => exact ⟨⟨h.1.owns, h.1.silent⟩, hwoken h.2⟩
  | writing part entry =>
    refine ⟨⟨h.1.owns, h.1.silent⟩, ?_⟩
    rcases h.2 with hw | ⟨hc, hw⟩
    · exact .inl (hwoken hw)
    · exact (hwaits .write hw).imp_right fun hw' => ⟨hc, hw'⟩
  | spawning =>
    refine ⟨⟨h.1.owns, h.1.silent⟩, ?_⟩
    rcases h.2 with hw | hw
    · exact .inl (hwoken hw)
    · exact hwaits .spawn hw
  | reading p reader batcher nextFlush =>
    obtain ⟨q, hq, hflow, hwait⟩ := h
    exact ⟨q, hq.of_owns_eq rfl, hflow, hwait.imp_left hwoken⟩
  | awaiting p reader batcher =>
    obtain ⟨q, hq, hflow, hcontrol, hunread, hwait⟩ := h
    refine ⟨q, hq.of_owns_eq rfl, hflow, hcontrol, hunread, ?_⟩
    rcases hwait with hw | ⟨hc, hw⟩
    · exact .inl (hwoken hw)
    · exact (hwaits .wait hw).imp_right fun hw' => ⟨hc, hw'⟩
  | ended =>
    have hover : v.Over printed matchLines run := h
    exact ⟨hover.phase, hover.dismissed, hover.ended, hover.exited, hover.lost⟩

theorem Sound.release (h : Sound printed w.ready w) (point : Point) :
    Sound printed
      ((w.sandbox.gate point).callers.foldl wake { w with sandbox := w.sandbox.release point }).ready
      ((w.sandbox.gate point).callers.foldl wake { w with sandbox := w.sandbox.release point }) := by
  obtain ⟨log, hworld, hfits⟩ := h
  obtain ⟨hslot, hsandbox, hjobs, hready⟩ :=
    foldl_wake (w.sandbox.gate point).callers { w with sandbox := w.sandbox.release point }
  generalize (w.sandbox.gate point).callers.foldl wake { w with sandbox := w.sandbox.release point } =
    w' at hslot hsandbox hjobs hready ⊢
  have hreleased : World printed log { w with sandbox := w.sandbox.release point } := by
    refine ⟨hworld.slot, hworld.generations, fun point' => ?_, by simpa using hworld.owners,
      by simpa using hworld.unspawned⟩
    rw [Script.gate_release]
    split
    · exact fun _ => rfl
    · exact hworld.gates point'
  refine ⟨log, hreleased.congr hslot hjobs (by rw [hsandbox]) (fun _ => by rw [hsandbox])
    (fun _ => by rw [hsandbox]; exact id), fun r job hjob => ?_⟩
  rw [hjobs] at hjob
  have hview : w'.view log r = (w.view log r).atGate point false := by
    simp only [Supervision.view, View.atGate, View.mk.injEq, hslot, hsandbox, true_and, and_true]
    refine ⟨funext fun point' => ?_, funext fun p => by rw [owned, owned, Script.processes_release]⟩
    rw [Script.gate_release, Function.update_apply]
    split <;> rfl
  rw [hview]
  refine (hfits r job hjob).release (fun hmem => (hready r).mpr (.inl hmem)) ?_
  intro hwaits
  exact (hready r).mpr (.inr (List.contains_iff_mem.mp hwaits))

/-! ## Everything that can be done -/

/-- What tells nothing and leaves the active run and the handles as they are is nothing to any run. -/
theorem Sound.move (h : Sound printed woken w) {m : Slot.Move} (hm : m.source? = none)
    (htold : w.slot.told m = []) (hactive : (w.slot.move m).active = w.slot.active)
    (hphase : (w.slot.move m).phase = w.slot.phase)
    (hhandles : (w.slot.move m).handles = w.slot.handles) :
    Sound printed woken { w with slot := w.slot.move m } := by
  obtain ⟨log, hworld, hfits⟩ := h
  have hmoved : World printed log { w with slot := w.slot.move m } := by
    simpa only [htold, List.append_nil] using hworld.move hm
  refine ⟨log, hmoved, ?_⟩
  intro r job hjob
  have hview : ({ w with slot := w.slot.move m } : Supervision).view log r = w.view log r := by
    simp only [Supervision.view, Slot.isCancelled, hactive, hphase, hhandles]
  rw [hview]
  exact hfits r job hjob

/-- **When a process is told what to do, all stays well**, also if it cannot be told. -/
theorem Sound.addressed (h : Sound printed w.ready w) {action : Action} {p : Nat}
    (ha : action.addressee? = some p) :
    Sound (fun p => printed p ++ prints p w (.act action)) (perform workshop w action).2.ready
      (perform workshop w action).2 := by
  cases hq : w.sandbox.controlled? p with
  | none =>
    have hquiet : (fun p => printed p ++ prints p w (.act action)) = printed :=
      funext fun p' => by rw [prints_of_uncontrolled ha hq, List.append_nil]
    rw [hquiet, perform_of_uncontrolled ha hq]
    exact h
  | some q =>
    have hp := ((w.sandbox.controlled?_eq_some p).mp hq).1
    rw [perform_of_controlled ha hq]
    refine h.happens hq (action.owner_effect q) (action.isAttended_effect q) (action.isKilled_effect q)
      (unread_effect ha hq) (Script.gate_modifyProcess ..) (fun p' => ?_) fun p' => ?_
    · rw [Script.getElem?_modifyProcess]
      by_cases hpp : p' = p
      · simp [hpp, hp]
      · simp [hpp, Ne.symm hpp]
    · split
      · rename_i hpp
        rw [hpp]
      · rename_i hpp
        rw [prints_of_ne ha hpp, List.append_nil]

/-- What is done that tells no process what to do keeps all well. -/
theorem Sound.unaddressed (h : Sound printed w.ready w) {action : Action}
    (ha : action.addressee? = none) :
    Sound printed (perform workshop w action).2.ready (perform workshop w action).2 := by
  cases action with
  | start source text matchLines environment => exact h.start source text matchLines environment
  | stop => exact h.stop
  | clear => exact h.move (m := .clear) rfl rfl rfl rfl rfl
  | subscribe => exact h.move (m := .subscribe) rfl rfl rfl rfl rfl
  | unsubscribe subscriber => exact h.move (m := .unsubscribe subscriber) rfl rfl rfl rfl rfl
  | emit p chunk => cases ha
  | exit p code => cases ha
  | lose p => cases ha
  | hold point =>
    refine h.congr rfl rfl (Script.processes_hold ..) (fun point' => ?_) fun point' => ?_
    · simp only [perform, Script.gate_hold]
      split
      · rename_i hpoint
        rw [hpoint]
      · rfl
    · simp only [perform, Script.gate_hold]
      split
      · exact nofun
      · exact id
  | release point => exact h.release point
  | failWrite reason =>
    exact h.congr rfl rfl rfl (fun point => by cases point <;> rfl) fun point => by
      cases point <;> exact id
  | failSpawn reason =>
    exact h.congr rfl rfl rfl (fun point => by cases point <;> rfl) fun point => by
      cases point <;> exact id
  | advance ms =>
    have hsettled : Sound printed [] (Supervision.elapse workshop (Supervision.settle workshop w) ms) :=
      h.settle.elapse ms
    simpa [perform, ready_elapse, ready_settle] using hsettled

/-- **What is done from outside keeps all well.** -/
theorem Sound.act (h : Sound printed w.ready w) (action : Action) :
    Sound (fun p => printed p ++ prints p w (.act action)) (perform workshop w action).2.ready
      (perform workshop w action).2 := by
  cases ha : action.addressee? with
  | some p => exact h.addressed ha
  | none =>
    have hquiet : (fun p => printed p ++ prints p w (.act action)) = printed :=
      funext fun p => by rw [prints_of_unaddressed ha, List.append_nil]
    rw [hquiet]
    exact h.unaddressed ha

theorem sound_initial : Sound (fun _ => []) initial.ready initial := by
  refine ⟨[], ⟨⟨[], rfl, rfl⟩, rfl, fun point => ?_, ?_, fun p _ => rfl⟩, fun r job hjob => ?_⟩
  · cases point <;> exact fun _ => rfl
  · intro p q hq
    simp [initial, Script.empty] at hq
  · simp [initial] at hjob

/-- **Every turn keeps all well.** -/
theorem Sound.turn (h : Sound printed w.ready w) (t : Turn) :
    Sound (fun p => printed p ++ prints p w t) (Supervision.turn workshop w t).ready
      (Supervision.turn workshop w t) := by
  cases t with
  | act action => exact h.act action
  | settle =>
    have hquiet : (fun p => printed p ++ prints p w .settle) = printed :=
      funext fun p => List.append_nil _
    rw [hquiet, Supervision.turn, ready_settle]
    exact h.settle

/-- **All is well after any history.** -/
theorem sound_after (workshop : Workshop) (turns : List Turn) :
    Sound (Supervision.printed workshop turns) (after workshop turns).ready (after workshop turns) := by
  induction turns using List.reverseRecOn with
  | nil => exact sound_initial
  | append_singleton turns t ih =>
    have hprinted : Supervision.printed workshop (turns ++ [t]) = fun p =>
        Supervision.printed workshop turns p ++ prints p (after workshop turns) t :=
      funext fun p => printed_append_singleton ..
    rw [hprinted, after_append_singleton]
    exact ih.turn t

end Scratchpad.Run
