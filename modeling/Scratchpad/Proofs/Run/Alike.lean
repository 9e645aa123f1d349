import Scratchpad.Proofs.Run.Actions
import Scratchpad.Proofs.Sandbox.Alike

/-!
# Worlds that differ in stale processes

A process is stale when its run has been told to end. Two worlds are alike but for some stale processes if
they have the same slot, the same jobs, and sandboxes that are alike but for these processes. A job goes on
in both alike: a job that has been told to end looks at none of its process, and a job that has not been
told to end has none that is stale.

## Main definitions

* `Supervision.Alike`: two worlds are alike but for some stale processes.

## Main statements

* `Supervision.Alike.go`, `Supervision.Alike.resume`: a job goes on in both alike.
* `Supervision.Alike.elapse`: time goes by in both alike.
-/

namespace Scratchpad.Run

open Log Sandbox

namespace Supervision

/-- Two worlds are alike but for some processes, whose runs have been told to end. -/
structure Alike (ps : List Nat) (w w' : Supervision) : Prop where
  slot : w'.slot = w.slot
  jobs : w'.jobs = w.jobs
  now : w'.now = w.now
  sandbox : Script.Alike ps w.sandbox w'.sandbox
  stale : ∀ p ∈ ps, ∃ run, (w.sandbox.processes.map (·.owner))[p]? = some run ∧
    w.slot.isCancelled run = true

namespace Alike

variable {workshop : Workshop} {ps : List Nat} {w w' : Supervision} {run : Nat} {job : Job}

theorem refl (w : Supervision) : Alike [] w w := ⟨rfl, rfl, rfl, .refl _ _, fun _ hp => by simp at hp⟩

theorem symm (h : Alike ps w w') : Alike ps w' w := by
  refine ⟨h.slot.symm, h.jobs.symm, h.now.symm, h.sandbox.symm, ?_⟩
  intro p hp
  rw [h.sandbox.owners_eq, h.slot]
  exact h.stale p hp

/-- A process of a run that has not been told to end is the same in both. -/
theorem notMem (h : Alike ps w w') {p : Nat} {q : Process} (hq : w.sandbox.processes[p]? = some q)
    (hc : w.slot.isCancelled q.owner = false) : p ∉ ps := by
  intro hp
  obtain ⟨run, howner, hstale⟩ := h.stale p hp
  rw [List.getElem?_map, hq, Option.map_some] at howner
  rw [← Option.some.inj howner, hc] at hstale
  cases hstale

/-! ## What a run does -/

/-- What changes the slot in both alike and calls no run back. -/
theorem slot_map (h : Alike ps w w') {f : Slot → Slot}
    (hf : ∀ run, w.slot.isCancelled run = true → (f w.slot).isCancelled run = true) :
    Alike ps { w with slot := f w.slot } { w' with slot := f w'.slot } := by
  refine ⟨by rw [h.slot], h.jobs, h.now, h.sandbox, fun p hp => ?_⟩
  obtain ⟨run, howner, hstale⟩ := h.stale p hp
  exact ⟨run, howner, hf run hstale⟩

/-- What changes the sandbox in both alike and takes no process from its owner. -/
theorem with_sandbox (h : Alike ps w w') {s s' : Script} (hs : Script.Alike ps s s')
    (howners : ∀ (p run : Nat), (w.sandbox.processes.map (·.owner))[p]? = some run →
      (s.processes.map (·.owner))[p]? = some run) :
    Alike ps { w with sandbox := s } { w' with sandbox := s' } := by
  refine ⟨h.slot, h.jobs, h.now, hs, ?_⟩
  intro p hp
  obtain ⟨run, howner, hstale⟩ := h.stale p hp
  exact ⟨run, howners p run howner, hstale⟩

theorem deliver (h : Alike ps w w') (generation run : Nat) (entries : List Entry) :
    Alike ps { w with slot := w.slot.deliver generation run entries }
      { w' with slot := w'.slot.deliver generation run entries } :=
  h.slot_map (f := fun s => s.deliver generation run entries) fun r hc => by
    rwa [Slot.isCancelled, Slot.handles_deliver]

theorem setRunning (h : Alike ps w w') (generation : Nat) :
    Alike ps { w with slot := w.slot.setRunning generation }
      { w' with slot := w'.slot.setRunning generation } :=
  h.slot_map (f := fun s => s.setRunning generation) fun r hc => by
    rwa [Slot.isCancelled, Slot.handles_setRunning]

theorem finish (h : Alike ps w w') (generation run : Nat) (outcome : Outcome) :
    Alike ps { w with slot := w.slot.finish generation run outcome }
      { w' with slot := w'.slot.finish generation run outcome } :=
  h.slot_map (f := fun s => s.finish generation run outcome) fun r hc => by
    rwa [Slot.isCancelled, Slot.handles_finish]

theorem atStage (h : Alike ps w w') (run : Nat) (stage : Stage) :
    Alike ps (w.atStage run stage) (w'.atStage run stage) := by
  refine ⟨h.slot, ?_, h.now, h.sandbox, h.stale⟩
  rw [Supervision.atStage, Supervision.atStage, h.jobs]

/-- Whom one of them has woken is of no account. -/
theorem wake_left (h : Alike ps w w') (run : Nat) : Alike ps (w.wake run) w' where
  slot := by rw [slot_wake, h.slot]
  jobs := by rw [jobs_wake, h.jobs]
  now := by rw [now_wake, h.now]
  sandbox := by rw [sandbox_wake]; exact h.sandbox
  stale := by rw [sandbox_wake, slot_wake]; exact h.stale

theorem modifyGate (h : Alike ps w w') (point : Point) (f : Gate → Gate) :
    Alike ps { w with sandbox := w.sandbox.modifyGate point f }
      { w' with sandbox := w'.sandbox.modifyGate point f } :=
  h.with_sandbox (h.sandbox.modifyGate point f) fun p run howner => by
    rwa [Script.processes_modifyGate]

theorem modifyProcess (h : Alike ps w w') (p : Nat) {f : Process → Process}
    (hf : ∀ q, (f q).owner = q.owner) :
    Alike ps { w with sandbox := w.sandbox.modifyProcess p f }
      { w' with sandbox := w'.sandbox.modifyProcess p f } :=
  h.with_sandbox (h.sandbox.modifyProcess p hf) fun p' run howner => by
    rw [Script.modifyProcess, map_modify_of_eq hf]
    exact howner

theorem kill (h : Alike ps w w') (p : Nat) :
    Alike ps { w with sandbox := w.sandbox.kill p } { w' with sandbox := w'.sandbox.kill p } :=
  h.modifyProcess p fun q => by split <;> rfl

theorem dismiss (h : Alike ps w w') (p : Nat) :
    Alike ps { w with sandbox := w.sandbox.dismiss p } { w' with sandbox := w'.sandbox.dismiss p } :=
  h.modifyProcess p fun _ => rfl

theorem markRead (h : Alike ps w w') (p : Nat) :
    Alike ps { w with sandbox := w.sandbox.markRead p } { w' with sandbox := w'.sandbox.markRead p } :=
  h.modifyProcess p fun _ => rfl

theorem write (h : Alike ps w w') (path contents : String) :
    (w'.sandbox.write path contents).1 = (w.sandbox.write path contents).1 ∧
      Alike ps { w with sandbox := (w.sandbox.write path contents).2 }
        { w' with sandbox := (w'.sandbox.write path contents).2 } := by
  obtain ⟨hanswer, hs⟩ := h.sandbox.write path contents
  refine ⟨hanswer, h.with_sandbox hs ?_⟩
  intro p run howner
  rwa [Script.processes_write]

theorem spawn (h : Alike ps w w') (run : Nat) (launch : Launch) :
    (w'.sandbox.spawn run launch).1 = (w.sandbox.spawn run launch).1 ∧
      Alike ps { w with sandbox := (w.sandbox.spawn run launch).2 }
        { w' with sandbox := (w'.sandbox.spawn run launch).2 } := by
  obtain ⟨hanswer, hs⟩ := h.sandbox.spawn run launch
  refine ⟨hanswer, h.with_sandbox hs ?_⟩
  intro p r howner
  rcases w.sandbox.spawn_cases run launch with ⟨-, -, hp⟩ | ⟨-, hp⟩
  · rwa [hp]
  · rw [hp, List.map_append, List.getElem?_append_left (List.getElem?_eq_some_iff.mp howner).1]
    exact howner

theorem conclude (h : Alike ps w w') (run : Nat) (job : Job) (outcome : Outcome) :
    Alike ps (w.conclude run job outcome) (w'.conclude run job outcome) :=
  (h.finish job.generation run outcome).atStage run .ended

theorem fail (h : Alike ps w w') (run : Nat) (job : Job) (message : String) :
    Alike ps (w.fail run job message) (w'.fail run job message) :=
  (h.deliver job.generation run [Entry.ofFailure message]).conclude run job (.failed message)

/-- A process that is abandoned in both may differ. -/
theorem abandon (h : Alike ps w w') (run p : Nat) :
    Alike ps (w.abandon run p) (w'.abandon run p) :=
  ((h.kill p).dismiss p).atStage run .ended

theorem deliverBatch (h : Alike ps w w') (run : Nat) (job : Job) (batch : Option (List Entry)) :
    Alike ps (w.deliverBatch run job batch) (w'.deliverBatch run job batch) := by
  cases batch with
  | none => exact h
  | some entries => exact h.deliver job.generation run entries

theorem readChunks (h : Alike ps w w') (run : Nat) (job : Job) (reader : LineReader)
    (batcher : Batcher Entry) (chunks : List String) :
    (w'.readChunks run job reader batcher chunks).2 = (w.readChunks run job reader batcher chunks).2 ∧
      Alike ps (w.readChunks run job reader batcher chunks).1
        (w'.readChunks run job reader batcher chunks).1 := by
  induction chunks generalizing w w' reader batcher with
  | nil => exact ⟨rfl, h⟩
  | cons chunk chunks ih => exact ih (h.deliverBatch run job _) _ _

theorem flushDue (h : Alike ps w w') (run : Nat) (job : Job) (batcher : Batcher Entry)
    (nextFlush : Nat) :
    (Supervision.flushDue workshop w' run job batcher nextFlush).2 =
        (Supervision.flushDue workshop w run job batcher nextFlush).2 ∧
      Alike ps (Supervision.flushDue workshop w run job batcher nextFlush).1
        (Supervision.flushDue workshop w' run job batcher nextFlush).1 := by
  rw [Supervision.flushDue, Supervision.flushDue, h.now]
  split
  · exact ⟨rfl, h.deliverBatch run job _⟩
  · exact ⟨rfl, h⟩

/-- A run whose process is the same in both ends alike. -/
theorem close (h : Alike ps w w') {p : Nat} (hp : p ∉ ps) (run : Nat) (job : Job) (reader : LineReader)
    (batcher : Batcher Entry) :
    Alike ps (w.close run job p reader batcher) (w'.close run job p reader batcher) := by
  rw [Supervision.close, Supervision.close]
  have hdelivered := (h.deliverBatch run job (batcher.push reader.flush.1.toList).1).deliverBatch run job
    (batcher.push reader.flush.1.toList).2.drain.1
  have hdismissed := hdelivered.dismiss p
  dsimp only
  rw [hdelivered.sandbox.processes_eq hp]
  cases (Option.map (fun q : Process => q.control) _).getD Control.lost with
  | exited code => exact hdismissed.conclude run job (.completed code)
  | alive => exact hdismissed.fail run job _
  | lost => exact hdismissed.fail run job _

/-- **A job reads alike in both.** If it has been told to end it abandons its process unread, and if it
has not, its process is the same in both. -/
theorem read (h : Alike ps w w') {p : Nat} (hp : w.slot.isCancelled run = false → p ∉ ps)
    (reader : LineReader) (batcher : Batcher Entry) (nextFlush : Nat) :
    (Supervision.go workshop run job w' (.read p reader batcher nextFlush)).1 =
        (Supervision.go workshop run job w (.read p reader batcher nextFlush)).1 ∧
      Alike ps (Supervision.go workshop run job w (.read p reader batcher nextFlush)).2
        (Supervision.go workshop run job w' (.read p reader batcher nextFlush)).2 := by
  simp only [Supervision.go, h.slot]
  split
  · exact ⟨rfl, h.abandon run p⟩
  · rename_i hc
    have hp' : p ∉ ps := hp (by simpa using hc)
    obtain ⟨hrest, hdue⟩ := h.flushDue run job batcher nextFlush
    generalize Supervision.flushDue workshop w run job batcher nextFlush = due at hrest hdue ⊢
    generalize Supervision.flushDue workshop w' run job batcher nextFlush = due' at hrest hdue ⊢
    obtain ⟨w₁, batcher₁, nextFlush₁⟩ := due
    obtain ⟨w₁', batcher₁', nextFlush₁'⟩ := due'
    obtain ⟨rfl, rfl⟩ : batcher₁' = batcher₁ ∧ nextFlush₁' = nextFlush₁ := Prod.ext_iff.mp hrest
    have hprocess : w₁'.sandbox.processes[p]? = w₁.sandbox.processes[p]? :=
      hdue.sandbox.processes_eq hp'
    dsimp only
    rw [hprocess]
    obtain ⟨hreader, hread⟩ := (hdue.markRead p).readChunks run job reader batcher₁'
      ((w₁.sandbox.processes[p]?.map (·.unread)).getD [])
    dsimp only at hreader hread
    generalize Supervision.readChunks { w₁ with sandbox := _ } run job reader batcher₁' _ = read
      at hreader hread ⊢
    generalize Supervision.readChunks { w₁' with sandbox := _ } run job reader batcher₁' _ = read'
      at hreader hread ⊢
    obtain ⟨w₂, reader₂, batcher₂⟩ := read
    obtain ⟨w₂', reader₂', batcher₂'⟩ := read'
    obtain ⟨rfl, rfl⟩ : reader₂' = reader₂ ∧ batcher₂' = batcher₂ := Prod.ext_iff.mp hreader
    have hcontrolled : w₂'.sandbox.controlled? p = w₂.sandbox.controlled? p :=
      hread.sandbox.controlled?_eq hp'
    dsimp only
    rw [hcontrolled]
    split
    · exact ⟨rfl, hread.atStage run _⟩
    · exact ⟨rfl, hread⟩

/-! ## A job that goes on -/

/-- **One leg of a job's way is the same in both.** -/
theorem go (h : Alike ps w w') {printed : Nat → List String} {woken : List Nat} {leg : Leg}
    (hw : Underway printed woken run job (leg, w)) :
    (Supervision.go workshop run job w' leg).1 = (Supervision.go workshop run job w leg).1 ∧
      Alike ps (Supervision.go workshop run job w leg).2 (Supervision.go workshop run job w' leg).2 := by
  obtain ⟨v, stage, hsees, hleg⟩ := hw
  obtain ⟨slot', s', jobs', ready', now'⟩ := w'
  obtain rfl : slot' = w.slot := h.slot
  obtain rfl : now' = w.now := h.now
  cases leg with
  | begin source =>
    simp only [Supervision.go]
    split
    · exact ⟨rfl, h.fail run job _⟩
    · exact ⟨rfl, h⟩
  | reach part entry =>
    have hgate : s'.writeGate = w.sandbox.writeGate := congrFun h.sandbox.gate_eq .write
    simp only [Supervision.go, hgate]
    split
    · exact ⟨rfl, h.atStage run .ended⟩
    · split
      · exact ⟨rfl, (h.modifyGate .write fun g => { g with callers := g.callers ++ [run] }).atStage run _⟩
      · exact ⟨rfl, h⟩
  | write part entry =>
    obtain ⟨hanswer, hwritten⟩ := h.write (part.path workshop) (part.contents entry)
    simp only [Supervision.go]
    generalize w.sandbox.write (part.path workshop) (part.contents entry) = written
      at hanswer hwritten ⊢
    generalize s'.write (part.path workshop) (part.contents entry) = written'
      at hanswer hwritten ⊢
    obtain ⟨answer, s⟩ := written
    obtain ⟨answer', s'⟩ := written'
    obtain rfl : answer' = answer := hanswer
    cases answer' with
    | error failure => exact ⟨rfl, hwritten.fail run job failure.message⟩
    | ok _ => exact ⟨rfl, hwritten⟩
  | reachSpawn =>
    have hgate : s'.spawnGate = w.sandbox.spawnGate := congrFun h.sandbox.gate_eq .spawn
    simp only [Supervision.go, hgate]
    split
    · exact ⟨rfl, (h.modifyGate .spawn fun g => { g with callers := g.callers ++ [run] }).atStage run _⟩
    · exact ⟨rfl, h⟩
  | spawn =>
    obtain ⟨hanswer, hspawned⟩ := h.spawn run
      ⟨workshop.settings.program, [workshop.settings.entryFile], job.environment⟩
    simp only [Supervision.go]
    generalize w.sandbox.spawn run _ = spawned at hanswer hspawned ⊢
    generalize s'.spawn run _ = spawned' at hanswer hspawned ⊢
    obtain ⟨answer, s⟩ := spawned
    obtain ⟨answer', s'⟩ := spawned'
    obtain rfl : answer' = answer := hanswer
    cases answer' with
    | error failure => exact ⟨rfl, hspawned.fail run job failure.message⟩
    | ok p =>
      dsimp only
      split
      · exact ⟨rfl, hspawned.abandon run p⟩
      · exact ⟨rfl, hspawned.setRunning job.generation⟩
  | read p reader batcher nextFlush =>
    obtain ⟨q, hq, -⟩ := hleg
    obtain ⟨hprocess, howner⟩ := hsees.processes_eq hq.owns
    exact h.read (fun hc => h.notMem hprocess (by rwa [howner])) reader batcher nextFlush
  | awaitExit p reader batcher =>
    have hgate : s'.waitGate = w.sandbox.waitGate := congrFun h.sandbox.gate_eq .wait
    simp only [Supervision.go, hgate]
    split
    · exact ⟨rfl, (h.modifyGate .wait fun g => { g with callers := g.callers ++ [run] }).atStage run _⟩
    · exact ⟨rfl, h⟩
  | close p reader batcher =>
    obtain ⟨q, hq, -, -, -, hc⟩ := hleg
    obtain ⟨hprocess, howner⟩ := hsees.processes_eq hq.owns
    have hp : p ∉ ps := h.notMem hprocess (by rw [howner, hsees.isCancelled_eq]; exact hc)
    exact ⟨rfl, h.close hp run job reader batcher⟩
  | rest => exact ⟨rfl, h⟩

/-- A job departs in both alike. -/
theorem depart (h : Alike ps w w') (run : Nat) (job : Job) :
    (Supervision.depart run job w').1 = (Supervision.depart run job w).1 ∧
      Alike ps (Supervision.depart run job w).2 (Supervision.depart run job w').2 := by
  obtain ⟨slot', s', jobs', ready', now'⟩ := w'
  obtain rfl : slot' = w.slot := h.slot
  have hgate : s'.gate = w.sandbox.gate := h.sandbox.gate_eq
  have hspawn : s'.spawnGate = w.sandbox.spawnGate := congrFun hgate .spawn
  have hwait : s'.waitGate = w.sandbox.waitGate := congrFun hgate .wait
  simp only [Supervision.depart, hgate, hspawn, hwait]
  cases job.stage with
  | fresh source => exact ⟨rfl, h⟩
  | writing part entry =>
    dsimp only
    split
    · exact ⟨rfl, (h.modifyGate .write fun g => { g with callers := g.callers.filter (· != run) }).atStage
        run .ended⟩
    · split <;> exact ⟨rfl, h⟩
  | spawning =>
    dsimp only
    split <;> exact ⟨rfl, h⟩
  | reading p reader batcher nextFlush => exact ⟨rfl, h⟩
  | awaiting p reader batcher =>
    dsimp only
    split
    · exact ⟨rfl, (h.modifyGate .wait fun g => { g with callers := g.callers.filter (· != run) }).abandon
        run p⟩
    · split <;> exact ⟨rfl, h⟩
  | ended => exact ⟨rfl, h⟩

/-- **A job goes on in both alike.** -/
theorem resume (h : Alike ps w w') {printed : Nat → List String} {woken : List Nat}
    (hw : Sound printed (run :: woken) w) :
    Alike ps (Supervision.resume workshop w run) (Supervision.resume workshop w' run) := by
  cases hjob : w.jobs[run]? with
  | none =>
    have hjob' : w'.jobs[run]? = none := by rw [h.jobs, hjob]
    rw [Supervision.resume, Supervision.resume, hjob, hjob']
    exact h
  | some job =>
    have hjob' : w'.jobs[run]? = some job := by rw [h.jobs, hjob]
    obtain ⟨v, hsees, hfits⟩ := hw.exists_sees hjob woken
      fun r hr hmem => (List.mem_cons.mp hmem).resolve_left hr
    have hrest := resume_induction₂ hjob hjob'
      (R := fun position position' => Underway printed woken run job position ∧
        position'.1 = position.1 ∧ Alike ps position.2 position'.2)
      ⟨underway_depart hsees hfits, h.depart run job⟩ (by
        rintro leg w leg' w' ⟨hunderway, rfl, halike⟩
        exact ⟨hunderway.go workshop, halike.go hunderway⟩)
    exact hrest.2.2

/-! ## Time -/

theorem elapseJob (h : Alike ps w w') (run time : Nat) :
    Alike ps (Supervision.elapseJob workshop w run time)
      (Supervision.elapseJob workshop w' run time) := by
  rw [Supervision.elapseJob, Supervision.elapseJob, h.jobs]
  cases w.jobs[run]? with
  | none => exact h
  | some job =>
    dsimp only
    cases job.stage with
    | reading p reader batcher nextFlush =>
      dsimp only
      split
      · exact (h.deliverBatch run job _).atStage run _
      · exact h
    | _ => exact h

/-- **Time goes by in both alike.** -/
theorem elapse (h : Alike ps w w') (ms : Nat) :
    Alike ps (Supervision.elapse workshop w ms) (Supervision.elapse workshop w' ms) := by
  have hfold : ∀ (runs : List Nat) (time : Nat) {w w' : Supervision}, Alike ps w w' →
      Alike ps (runs.foldl (fun w run => Supervision.elapseJob workshop w run time) w)
        (runs.foldl (fun w run => Supervision.elapseJob workshop w run time) w') := by
    intro runs time
    induction runs with
    | nil => exact fun h => h
    | cons run runs ih => exact fun h => ih (h.elapseJob run time)
  have hall := hfold (List.range w.jobs.length) (w.now + ms) h
  rw [Supervision.elapse, Supervision.elapse, h.jobs, h.now]
  exact ⟨hall.slot, hall.jobs, rfl, hall.sandbox, hall.stale⟩

end Alike

end Supervision

end Scratchpad.Run
