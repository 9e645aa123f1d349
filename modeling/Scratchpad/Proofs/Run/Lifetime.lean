import Scratchpad.Proofs.Run.Actions

/-!
# No process is left behind

Once every job waits, a process that goes on and has not been killed belongs to the active run. That a run
has been told to end is noticed wherever its job waits, except while its program is being started, and a
program that is started too late is killed at once.

What becomes of a program that is started too late is a law of its own: no step of the world gives a
cancelled run a process that is not killed, whatever the step is and whichever job takes it. The rest is
read off what holds of every run after any history.

## Main definitions

* `IsAtLarge`: a process goes on and has not been killed.
* `Endures`: what every step of the world keeps of processes and of runs that have been told to end.

## Main statements

* `Endures.go`, `endures_turn`, `endures_after`: every leg, every turn and every history keeps it.
* `Fits.phase_of_isAtLarge`: a run that waits while its process is at large has the slot.
* `Fits.attends_of_phase`: a run that has the slot attends to its process.
* `no_process_left_behind`: what holds of every process after any history.
-/

namespace Scratchpad.Run

open Log Sandbox Supervision

/-- A process goes on and has not been killed. -/
def IsAtLarge (q : Process) : Prop := q.control = .alive ∧ q.isKilled = false

/-! ## What endures -/

/-- What every step of the world keeps: a run that has been told to end has been told for good, a process
keeps its owner and stays killed, and a process that is added for a run that has been told to end is
killed. -/
structure Endures (w w' : Supervision) : Prop where
  isCancelled : ∀ r, w.slot.isCancelled r = true → w'.slot.isCancelled r = true
  processes : ∀ (p : Nat) (q' : Process), w'.sandbox.processes[p]? = some q' →
    (∃ q, w.sandbox.processes[p]? = some q ∧ q'.owner = q.owner ∧
      (q.isKilled = true → q'.isKilled = true)) ∨
    (w.slot.isCancelled q'.owner = true → q'.isKilled = true)

namespace Endures

variable {workshop : Workshop} {run : Nat} {job : Job} {w w' w'' : Supervision}

/-- A step that leaves the handles and the processes alone. -/
theorem of_eq (hhandles : w'.slot.handles = w.slot.handles)
    (hp : w'.sandbox.processes = w.sandbox.processes) : Endures w w' where
  isCancelled r hr := by rwa [Slot.isCancelled, hhandles]
  processes p q' hq' := by
    rw [hp] at hq'
    exact .inl ⟨q', hq', rfl, id⟩

theorem refl (w : Supervision) : Endures w w := of_eq rfl rfl

theorem trans (h : Endures w w') (h' : Endures w' w'') : Endures w w'' where
  isCancelled r hr := h'.isCancelled r (h.isCancelled r hr)
  processes p q'' hq'' := by
    rcases h'.processes p q'' hq'' with ⟨q', hq', howner', hkilled'⟩ | hlate
    · rcases h.processes p q' hq' with ⟨q, hq, howner, hkilled⟩ | hlate
      · exact .inl ⟨q, hq, howner'.trans howner, fun hk => hkilled' (hkilled hk)⟩
      · right
        rw [howner']
        exact fun hc => hkilled' (hlate hc)
    · exact .inr fun hc => hlate (h.isCancelled _ hc)

/-- A step that adds a process. -/
theorem of_append {q : Process} (hhandles : w'.slot.handles = w.slot.handles)
    (hp : w'.sandbox.processes = w.sandbox.processes ++ [q])
    (hlate : w.slot.isCancelled q.owner = true → q.isKilled = true) : Endures w w' where
  isCancelled r hr := by rwa [Slot.isCancelled, hhandles]
  processes p q' hq' := by
    rw [hp, List.getElem?_append] at hq'
    split at hq'
    · exact .inl ⟨q', hq', rfl, id⟩
    · obtain rfl : q = q' := by
        rw [List.getElem?_singleton] at hq'
        split at hq'
        · exact Option.some.inj hq'
        · cases hq'
      exact .inr hlate

/-- A step that does something with one process, which keeps its owner and stays killed if it was. -/
theorem modifyProcess {w : Supervision} {p : Nat} {f : Process → Process}
    (howner : ∀ q, (f q).owner = q.owner) (hkilled : ∀ q, q.isKilled = true → (f q).isKilled = true) :
    Endures w { w with sandbox := w.sandbox.modifyProcess p f } where
  isCancelled _ := id
  processes p' q' hq' := by
    left
    rw [Script.getElem?_modifyProcess] at hq'
    split at hq'
    · obtain ⟨q, hq, rfl⟩ := Option.map_eq_some_iff.mp hq'
      exact ⟨q, hq, howner q, hkilled q⟩
    · exact ⟨q', hq', rfl, id⟩

/-! ### What a job does -/

theorem deliver (w : Supervision) (generation run : Nat) (entries : List Entry) :
    Endures w { w with slot := w.slot.deliver generation run entries } :=
  of_eq (Slot.handles_deliver ..) rfl

theorem atStage (w : Supervision) (run : Nat) (stage : Stage) : Endures w (w.atStage run stage) :=
  of_eq rfl rfl

theorem conclude (w : Supervision) (run : Nat) (job : Job) (outcome : Outcome) :
    Endures w (w.conclude run job outcome) := of_eq (Slot.handles_finish ..) rfl

theorem fail (w : Supervision) (run : Nat) (job : Job) (message : String) :
    Endures w (w.fail run job message) :=
  (deliver w job.generation run [Entry.ofFailure message]).trans (conclude ..)

theorem dismiss (w : Supervision) (p : Nat) :
    Endures w { w with sandbox := w.sandbox.dismiss p } := modifyProcess (fun _ => rfl) fun _ => id

theorem kill (w : Supervision) (p : Nat) : Endures w { w with sandbox := w.sandbox.kill p } :=
  modifyProcess (fun q => by split <;> rfl) fun q hk => by split <;> simp [hk]

theorem abandon (w : Supervision) (run p : Nat) : Endures w (w.abandon run p) :=
  ((kill w p).trans (dismiss _ p)).trans (atStage _ run .ended)

theorem markRead (w : Supervision) (p : Nat) :
    Endures w { w with sandbox := w.sandbox.markRead p } := modifyProcess (fun _ => rfl) fun _ => id

theorem deliverBatch (w : Supervision) (run : Nat) (job : Job) (batch : Option (List Entry)) :
    Endures w (w.deliverBatch run job batch) := by
  cases batch with
  | none => exact refl w
  | some entries => exact deliver w job.generation run entries

theorem readChunks (w : Supervision) (run : Nat) (job : Job) (reader : LineReader)
    (batcher : Batcher Entry) (chunks : List String) :
    Endures w (w.readChunks run job reader batcher chunks).1 := by
  induction chunks generalizing w reader batcher with
  | nil => exact refl w
  | cons chunk chunks ih => exact (deliverBatch w run job _).trans (ih _ _ _)

theorem flushDue (w : Supervision) (run : Nat) (job : Job) (batcher : Batcher Entry) (nextFlush : Nat) :
    Endures w (Supervision.flushDue workshop w run job batcher nextFlush).1 := by
  rw [Supervision.flushDue]
  split
  · exact deliverBatch w run job _
  · exact refl w

theorem close (w : Supervision) (run : Nat) (job : Job) (p : Nat) (reader : LineReader)
    (batcher : Batcher Entry) : Endures w (w.close run job p reader batcher) := by
  rw [Supervision.close]
  dsimp only
  have hdelivered := (deliverBatch w run job (batcher.push reader.flush.1.toList).1).trans
    (deliverBatch _ run job (batcher.push reader.flush.1.toList).2.drain.1)
  have hdismissed := hdelivered.trans (dismiss _ p)
  split
  · exact hdismissed.trans (conclude ..)
  · exact hdismissed.trans (fail ..)
  · exact hdismissed.trans (fail ..)

/-- **A program that is started for a run that has been told to end is killed.** The job looks whether it
is too late as soon as it has started the program. -/
theorem spawn (w : Supervision) : Endures w (go workshop run job w .spawn).2 := by
  have hcases := w.sandbox.spawn_cases run
    ⟨workshop.settings.program, [workshop.settings.entryFile], job.environment⟩
  rw [Supervision.go]
  dsimp only
  split
  · rename_i failure sandbox heq
    have hp : sandbox.processes = w.sandbox.processes := by simpa [heq] using hcases
    have hfailed : Endures w { w with sandbox := sandbox } := of_eq rfl hp
    exact hfailed.trans (fail _ run job failure.message)
  · rename_i p sandbox heq
    obtain ⟨rfl, hp⟩ : p = w.sandbox.processes.length ∧
        sandbox.processes = w.sandbox.processes ++ [⟨run, [], .alive, false, true⟩] := by
      simpa [heq] using hcases
    split
    · have hkilled : ((sandbox.kill w.sandbox.processes.length).dismiss
          w.sandbox.processes.length).processes =
            w.sandbox.processes ++ [⟨run, [], .alive, true, false⟩] := by
        simp [Script.kill, Script.dismiss, Script.modifyProcess, hp, modify_length_append]
      exact of_append rfl hkilled fun _ => rfl
    · rename_i hc
      exact of_append (Slot.handles_setRunning ..) hp fun hc' => absurd hc' hc

/-- **Every leg of a job keeps what it should.** -/
theorem go (w : Supervision) (leg : Leg) : Endures w (Supervision.go workshop run job w leg).2 := by
  have hgate : ∀ point stage,
      Endures w ({ w with sandbox := w.sandbox.await point run }.atStage run stage) :=
    fun point stage => of_eq rfl (Script.processes_await ..)
  cases leg with
  | begin source =>
    rw [Supervision.go]
    split
    · exact fail w run job _
    · exact refl w
  | reach part entry =>
    rw [Supervision.go]
    split
    · exact atStage w run .ended
    · split
      · exact hgate .write _
      · exact refl w
  | write part entry =>
    have hwrite := w.sandbox.processes_write (part.path workshop) (part.contents entry)
    rw [Supervision.go]
    split
    · rename_i failure sandbox heq
      rw [heq] at hwrite
      have hrefused : Endures w { w with sandbox := sandbox } := of_eq rfl hwrite
      exact hrefused.trans (fail _ run job failure.message)
    · rename_i sandbox heq
      rw [heq] at hwrite
      exact of_eq rfl hwrite
  | reachSpawn =>
    rw [Supervision.go]
    split
    · exact hgate .spawn _
    · exact refl w
  | spawn => exact spawn w
  | read p reader batcher nextFlush =>
    rw [Supervision.go]
    split
    · exact abandon w run p
    · have hdue : Endures w (Supervision.flushDue workshop w run job batcher nextFlush).1 :=
        flushDue w run job batcher nextFlush
      generalize Supervision.flushDue workshop w run job batcher nextFlush = due at hdue ⊢
      have hmark := hdue.trans (markRead due.1 p)
      dsimp only
      split
      · exact (hmark.trans (readChunks _ run job reader due.2.1 _)).trans (atStage ..)
      · exact hmark.trans (readChunks _ run job reader due.2.1 _)
  | awaitExit p reader batcher =>
    rw [Supervision.go]
    split
    · exact hgate .wait _
    · exact refl w
  | close p reader batcher => exact close w run job p reader batcher
  | rest => exact refl w

theorem depart (w : Supervision) : Endures w (Supervision.depart run job w).2 := by
  have hleave : ∀ point, Endures w { w with sandbox := w.sandbox.leave point run } :=
    fun point => of_eq rfl (Script.processes_leave ..)
  rw [Supervision.depart]
  split
  · exact refl w
  · split
    · exact (hleave .write).trans (atStage ..)
    · split <;> exact refl w
  · split <;> exact refl w
  · exact refl w
  · split
    · exact (hleave .wait).trans (abandon ..)
    · split <;> exact refl w
  · exact refl w

/-- **A job that goes on keeps what it should.** -/
theorem resume (w : Supervision) (run : Nat) : Endures w (Supervision.resume workshop w run) := by
  cases hjob : w.jobs[run]? with
  | none =>
    rw [Supervision.resume, hjob]
    exact refl w
  | some job =>
    have h : Endures w (Leg.rest, Supervision.resume workshop w run).2 :=
      resume_induction (P := fun position => Endures w position.2) hjob (depart w)
        fun leg w' hw => hw.trans (go w' leg)
    exact h

theorem settle (w : Supervision) : Endures w (Supervision.settle workshop w) :=
  List.foldlRecOn (motive := Endures w) (b := { w with ready := [] }) w.ready
    (Supervision.resume workshop) (of_eq rfl rfl) fun w' hw' run _ => hw'.trans (resume w' run)

theorem elapseJob (w : Supervision) (run time : Nat) :
    Endures w (Supervision.elapseJob workshop w run time) := by
  rcases elapseJob_cases workshop w run time with heq | ⟨job, p, reader, batcher, _, _, _, _, heq⟩
  · rw [heq]
    exact refl w
  · rw [heq]
    exact (deliverBatch w run job batcher.tick.1).trans (atStage ..)

theorem elapse (w : Supervision) (ms : Nat) : Endures w (Supervision.elapse workshop w ms) :=
  elapse_induction (refl w) (fun w' run hw' => hw'.trans (elapseJob w' run _))
    fun _ _ hw' => hw'.trans (of_eq rfl rfl)

/-! ### What is done from outside -/

/-- A step that kills the active run at most. -/
theorem of_killActive (hc : ∀ r, w'.slot.isCancelled r = w.slot.killActive.isCancelled r)
    (hp : w'.sandbox.processes = w.sandbox.processes) : Endures w w' where
  isCancelled r hr := by rw [hc, Slot.isCancelled_killActive, hr, Bool.true_or]
  processes p q' hq' := by
    rw [hp] at hq'
    exact .inl ⟨q', hq', rfl, id⟩

theorem perform (w : Supervision) (action : Action) :
    Endures w (Supervision.perform workshop w action).2 := by
  cases ha : action.addressee? with
  | some p =>
    cases hq : w.sandbox.controlled? p with
    | none =>
      rw [perform_of_uncontrolled ha hq]
      exact refl w
    | some q =>
      rw [perform_of_controlled ha hq]
      have heffect : Endures w { w with sandbox := w.sandbox.modifyProcess p action.effect } :=
        modifyProcess action.owner_effect fun q hk => (action.isKilled_effect q).trans hk
      exact heffect.trans (of_eq (by rw [slot_wake]) (by rw [sandbox_wake]))
  | none =>
    cases action with
    | start source text matchLines environment =>
      exact of_killActive (fun r => by rw [Supervision.perform, slot_start, Slot.isCancelled_start])
        (by rw [Supervision.perform, sandbox_start])
    | stop =>
      exact of_killActive (fun r => by simp [Supervision.perform, Slot.stop])
        (by simp [Supervision.perform])
    | clear => exact of_eq rfl rfl
    | subscribe => exact of_eq rfl rfl
    | unsubscribe subscriber => exact of_eq rfl rfl
    | emit p chunk => cases ha
    | exit p code => cases ha
    | lose p => cases ha
    | hold point => exact of_eq rfl (Script.processes_hold ..)
    | release point =>
      obtain ⟨hslot, hsandbox, -, -⟩ :=
        foldl_wake (w.sandbox.gate point).callers { w with sandbox := w.sandbox.release point }
      refine of_eq ?_ ?_
      · rw [Supervision.perform, hslot]
      · rw [Supervision.perform, hsandbox, Script.processes_release]
    | failWrite reason => exact of_eq rfl rfl
    | failSpawn reason => exact of_eq rfl rfl
    | advance ms => exact (settle w).trans (elapse _ ms)

end Endures

section After

variable (workshop : Workshop)

theorem endures_turn (w : Supervision) (t : Turn) : Endures w (turn workshop w t) := by
  cases t with
  | act action => exact .perform w action
  | settle => exact .settle w

/-- **What should endure endures in every history.** -/
theorem endures_after (earlier later : List Turn) :
    Endures (after workshop earlier) (after workshop (earlier ++ later)) := by
  induction later using List.reverseRecOn with
  | nil =>
    rw [List.append_nil]
    exact .refl _
  | append_singleton later t ih =>
    rw [← List.append_assoc, after_append_singleton]
    exact ih.trans (endures_turn workshop _ t)

end After

/-! ## Runs that wait -/

section Fits

variable {printed : Nat → List String} {matchLines : Bool} {run : Nat} {v : View} {isWoken : Prop}
  {stage : Stage} {p : Nat} {q : Process}

/-- **A run that waits while its process is at large has the slot**, and its program runs. If it had been
told to end, it would have been woken for that. -/
theorem Fits.phase_of_isAtLarge (h : Fits printed matchLines run v isWoken stage) (hquiet : ¬ isWoken)
    (hq : v.owns p = some q) (hlarge : IsAtLarge q) : v.phase = some .running := by
  have hunspawned : ¬ v.Unspawned := fun hv => by simp [hv.owns p] at hq
  cases stage with
  | fresh source => exact absurd h.1 hunspawned
  | writing part entry => exact absurd h.1 hunspawned
  | spawning => exact absurd h.1 hunspawned
  | reading p₀ reader batcher nextFlush =>
    obtain ⟨q₀, -, hflow, hwait⟩ := h
    obtain ⟨hc, -, -⟩ := hwait.resolve_left hquiet
    exact (hflow hc).1
  | awaiting p₀ reader batcher =>
    obtain ⟨q₀, hq₀, -, hcontrol, -, -⟩ := h
    obtain ⟨rfl, rfl⟩ := hq₀.eq_of_owns hq
    exact absurd hlarge.1 hcontrol
  | ended =>
    have hover : v.Over printed matchLines run := h
    have hkilled := (hover.dismissed p q hq).2 hlarge.1
    simp [hlarge.2] at hkilled

/-- **A run that has the slot attends to its process**, if it has one. -/
theorem Fits.attends_of_phase (h : Fits printed matchLines run v isWoken stage)
    (hphase : v.phase.isSome) (hq : v.owns p = some q) : v.Attends p q := by
  have hunspawned : ¬ v.Unspawned := fun hv => by simp [hv.owns p] at hq
  cases stage with
  | fresh source => exact absurd h.1 hunspawned
  | writing part entry => exact absurd h.1 hunspawned
  | spawning => exact absurd h.1 hunspawned
  | reading p₀ reader batcher nextFlush =>
    obtain ⟨q₀, hq₀, -, -⟩ := h
    obtain ⟨rfl, rfl⟩ := hq₀.eq_of_owns hq
    exact hq₀
  | awaiting p₀ reader batcher =>
    obtain ⟨q₀, hq₀, -, -, -, -⟩ := h
    obtain ⟨rfl, rfl⟩ := hq₀.eq_of_owns hq
    exact hq₀
  | ended =>
    have hnone : v.phase = none := h.phase
    simp [hnone] at hphase

end Fits

/-! ## Processes after a history -/

/-- The owner of a process sees it, and its view fits its stage. -/
theorem Sound.exists_fits {printed : Nat → List String} {woken : List Nat} {w : Supervision}
    (h : Sound printed woken w) {p : Nat} {q : Process} (hq : w.sandbox.processes[p]? = some q) :
    ∃ log matchLines stage,
      Fits printed matchLines q.owner (w.view log q.owner) (q.owner ∈ woken) stage ∧
        (w.view log q.owner).owns p = some q := by
  obtain ⟨log, hworld, hfits⟩ := h
  have hjob := List.getElem?_eq_getElem (hworld.owners p q hq)
  exact ⟨log, _, _, hfits q.owner _ hjob, owned_eq_some.mpr ⟨hq, rfl⟩⟩

/-- **No process is left behind**, whatever has been done, and whenever gates were held and released. When
every job waits, a process that goes on and has not been killed belongs to the active run, which is running,
and no other process is so. A process of the active run is attended to and has not been killed, at any
time. A process that was started for a run that had been told to end has been killed. -/
theorem no_process_left_behind (workshop : Workshop) (turns : List Turn) {p : Nat} {q : Process}
    (hq : (after workshop turns).sandbox.processes[p]? = some q) :
    ((after workshop turns).ready = [] → IsAtLarge q →
      (after workshop turns).slot.active = some q.owner ∧
        (after workshop turns).slot.phase = .running ∧
        ∀ (p' : Nat) (q' : Process), (after workshop turns).sandbox.processes[p']? = some q' →
          IsAtLarge q' → p' = p) ∧
    ((after workshop turns).slot.active = some q.owner → q.isAttended = true ∧ q.isKilled = false) ∧
    ∀ earlier later, turns = earlier ++ later →
      (after workshop earlier).sandbox.processes.length ≤ p →
      (after workshop earlier).slot.isCancelled q.owner = true → q.isKilled = true := by
  have hsound := sound_after workshop turns
  refine ⟨fun hsettled hlarge => ?_, fun hactive => ?_, ?_⟩
  · -- nobody has been woken
    have hrunning : ∀ (p : Nat) (q : Process),
        (after workshop turns).sandbox.processes[p]? = some q → IsAtLarge q →
        (after workshop turns).slot.active = some q.owner ∧
          (after workshop turns).slot.phase = .running := by
      intro p q hq hlarge
      obtain ⟨log, matchLines, stage, hfits, howns⟩ := hsound.exists_fits hq
      have hphase := hfits.phase_of_isAtLarge (by simp [hsettled]) howns hlarge
      rw [Supervision.view] at hphase
      dsimp only at hphase
      split at hphase
      · rename_i hactive
        exact ⟨hactive, Option.some.inj hphase⟩
      · cases hphase
    obtain ⟨hactive, hphase⟩ := hrunning p q hq hlarge
    refine ⟨hactive, hphase, fun p' q' hq' hlarge' => ?_⟩
    have howner : q'.owner = q.owner :=
      Option.some.inj ((hrunning p' q' hq' hlarge').1.symm.trans hactive)
    obtain ⟨log, matchLines, stage, hfits, howns⟩ := hsound.exists_fits hq
    have hattends := hfits.attends_of_phase ((isSome_phase_view _ log q.owner).mpr hactive) howns
    exact (hattends.eq_of_owns (owned_eq_some.mpr ⟨hq', howner⟩)).1.symm
  · obtain ⟨log, matchLines, stage, hfits, howns⟩ := hsound.exists_fits hq
    have hattends := hfits.attends_of_phase ((isSome_phase_view _ log q.owner).mpr hactive) howns
    exact ⟨hattends.isAttended, hattends.isKilled⟩
  · rintro earlier later rfl hnew hc
    rcases (endures_after workshop earlier later).processes p q hq with ⟨q₀, hq₀, -, -⟩ | hlate
    · rw [List.getElem?_eq_none hnew] at hq₀
      cases hq₀
    · exact hlate hc

/-- Two runs are superseded while their programs are about to be started, and the gate is released for all
three at once. -/
theorem no_process_left_behind_parked :
    let workshop : Workshop := ⟨⟨50, 2, "node", "main.mjs"⟩, fun source => .ok source⟩
    let earlier : List Turn :=
      [.act (.hold .spawn), .act (.start "a" "x" false .empty), .settle,
        .act (.start "b" "y" false .empty), .settle, .act (.start "c" "z" false .empty), .settle]
    let turns : List Turn := earlier ++ [.act (.release .spawn), .settle]
    (after workshop turns).sandbox.processes.map (·.owner) = [0, 1, 2] ∧
      (after workshop turns).sandbox.processes[2]? = some ⟨2, [], .alive, false, true⟩ ∧
      (after workshop turns).ready = [] ∧
      (after workshop earlier).sandbox.processes = [] ∧
      (∀ run < 2, (after workshop earlier).slot.isCancelled run = true) ∧
      ((after workshop turns).slot.active = some 2 ∧
        (after workshop turns).slot.phase = .running ∧
        ∀ (p' : Nat) (q' : Process), (after workshop turns).sandbox.processes[p']? = some q' →
          IsAtLarge q' → p' = 2) ∧
      ∀ (p : Nat) (q : Process), (after workshop turns).sandbox.processes[p]? = some q →
        q.owner < 2 → q.isKilled = true := by
  intro workshop earlier turns
  have howners : (after workshop turns).sandbox.processes.map (·.owner) = [0, 1, 2] := by
    decide +kernel
  have hlast : (after workshop turns).sandbox.processes[2]? = some ⟨2, [], .alive, false, true⟩ := by
    decide +kernel
  have hready : (after workshop turns).ready = [] := by decide +kernel
  have hnew : (after workshop earlier).sandbox.processes = [] := by decide +kernel
  have hcancelled : ∀ run < 2, (after workshop earlier).slot.isCancelled run = true := by
    decide +kernel
  refine ⟨howners, hlast, hready, hnew, hcancelled, ?_, ?_⟩
  · exact (no_process_left_behind workshop turns hlast).1 hready ⟨rfl, rfl⟩
  · intro p q hq howner
    have hlate := (no_process_left_behind workshop turns hq).2.2
    exact hlate earlier _ rfl (by simp [hnew]) (hcancelled q.owner howner)

end Scratchpad.Run
