import Scratchpad.Proofs.Run.Actions

/-!
# Exact delivery

A run that ends by itself has delivered the entries of everything that its process has printed, each once
and in order, however the text was cut into chunks and however they mixed with timers, gates and whatever
else was done. Its last event tells how it ended.

## Main definitions

* `Job.order`: what a job keeps of what its run is asked for.
* `Reports`: the events of a run that delivers entries and ends.

## Main statements

* `jobs_after`: the jobs of a history are those that its runs are asked for.
* `Fits.over_of_quiet`: a run whose process has ended is over when nothing wakes it or holds it back.
* `delivers_exactly`: what whoever listens receives of a run that ends by itself.
-/

namespace Scratchpad.Run

open Log Sandbox Supervision

variable {workshop : Workshop} {turns : List Turn} {w : Supervision}

/-! ## What jobs keep -/

/-- What a job keeps of what its run is asked for. -/
def Job.order (job : Job) : Bool × Environment := (job.matchLines, job.environment)

/-- What a request asks of a job. -/
def Request.order (r : Request) : Bool × Environment := (r.matchLines, r.environment)

theorem Supervision.Spares.map_order {run : Nat} {w' : Supervision} (h : Spares run w w') :
    w'.jobs.map Job.order = w.jobs.map Job.order := by
  obtain ⟨f, hf⟩ := h.jobs
  rw [hf]
  apply map_modify_of_eq
  exact fun job => rfl

theorem map_order_settle (w : Supervision) :
    (settle workshop w).jobs.map Job.order = w.jobs.map Job.order :=
  List.foldlRecOn (motive := fun w' => w'.jobs.map Job.order = w.jobs.map Job.order)
    (b := { w with ready := [] }) w.ready (resume workshop) rfl fun w' hw' run _ =>
      (Spares.resume w' run).map_order.trans hw'

theorem map_order_elapse (w : Supervision) (ms : Nat) :
    (elapse workshop w ms).jobs.map Job.order = w.jobs.map Job.order :=
  elapse_induction (P := fun w' => w'.jobs.map Job.order = w.jobs.map Job.order) rfl
    (fun w' run hw' => (Spares.elapseJob w' run _).map_order.trans hw') fun _ _ hw' => hw'

theorem map_order_turn (w : Supervision) (t : Turn) :
    (turn workshop w t).jobs.map Job.order =
      w.jobs.map Job.order ++ t.request?.toList.map Request.order := by
  cases t with
  | settle => simpa [turn, Turn.request?] using map_order_settle w
  | act action =>
    cases action with
    | start source text matchLines environment =>
      simp [turn, perform, start, Turn.request?, Job.order, Request.order]
    | stop => simp [turn, perform, Turn.request?]
    | clear => simp [turn, perform, Turn.request?]
    | subscribe => simp [turn, perform, Turn.request?]
    | unsubscribe subscriber => simp [turn, perform, Turn.request?]
    | emit p chunk =>
      simp only [turn, perform, Turn.request?]
      split <;> simp
    | exit p code => simp [turn, perform, Turn.request?]
    | lose p => simp [turn, perform, Turn.request?]
    | hold point => simp [turn, perform, Turn.request?]
    | release point => simp [turn, perform, Turn.request?, foldl_wake]
    | failWrite reason => simp [turn, perform, Turn.request?]
    | failSpawn reason => simp [turn, perform, Turn.request?]
    | advance ms => simp [turn, perform, Turn.request?, map_order_elapse, map_order_settle]

/-- The jobs of a history are those that its runs are asked for. -/
theorem jobs_after (workshop : Workshop) (turns : List Turn) :
    (after workshop turns).jobs.map Job.order = (requests turns).map Request.order := by
  induction turns using List.reverseRecOn with
  | nil => rfl
  | append_singleton turns t ih =>
    rw [after_append_singleton, map_order_turn, ih, requests_append_singleton, List.map_append]

/-- There is a job for everything that is asked for. -/
theorem length_requests (workshop : Workshop) (turns : List Turn) :
    (requests turns).length = (after workshop turns).jobs.length := by
  simpa using (congrArg List.length (jobs_after workshop turns)).symm

/-! ## Runs that end by themselves -/

section Over

variable {printed : Nat → List String} {matchLines : Bool} {run : Nat} {v : View} {isWoken : Prop}
  {stage : Stage}

/-- A run that has not been told to end is over when it does not have the slot. -/
theorem Fits.over_of_phase (h : Fits printed matchLines run v isWoken stage)
    (hc : v.isCancelled = false) (hphase : v.phase = none) : v.Over printed matchLines run := by
  have hunspawned : ¬ v.Unspawned := fun hv => by simpa [hphase] using (hv.silent hc).1
  cases stage with
  | fresh source => exact absurd h.1 hunspawned
  | writing part entry => exact absurd h.1 hunspawned
  | spawning => exact absurd h.1 hunspawned
  | reading p reader batcher nextFlush =>
    obtain ⟨q, -, hflow, -⟩ := h
    simpa [hphase] using (hflow hc).1
  | awaiting p reader batcher =>
    obtain ⟨q, -, hflow, -⟩ := h
    simpa [hphase] using (hflow hc).1
  | ended => exact h

/-- A run whose process has ended is over when nothing is left to wake it or to hold it back. -/
theorem Fits.over_of_quiet (h : Fits printed matchLines run v isWoken stage) (hquiet : ¬ isWoken)
    (hwaits : v.waits .wait = false) {p : Nat} {q : Process} (hq : v.owns p = some q)
    (hcontrol : q.control ≠ .alive) : v.Over printed matchLines run := by
  have hunspawned : ¬ v.Unspawned := fun hv => by simp [hv.owns p] at hq
  cases stage with
  | fresh source => exact absurd h.1 hunspawned
  | writing part entry => exact absurd h.1 hunspawned
  | spawning => exact absurd h.1 hunspawned
  | reading p₀ reader batcher nextFlush =>
    obtain ⟨q₀, hq₀, -, hwait⟩ := h
    obtain ⟨rfl, rfl⟩ := hq₀.eq_of_owns hq
    rcases hwait with hw | ⟨-, halive, -⟩
    · exact absurd hw hquiet
    · exact absurd halive hcontrol
  | awaiting p₀ reader batcher =>
    obtain ⟨q₀, -, -, -, -, hwait⟩ := h
    rcases hwait with hw | ⟨-, hw⟩
    · exact absurd hw hquiet
    · simp [hwaits] at hw
  | ended => exact h

end Over

/-- A run of a history that owns a process which has ended, and that has not been told to end, is over
if it does not have the slot, or if the world has settled and nothing holds it back. -/
theorem exists_over {run p : Nat} {req : Request} (hreq : (requests turns)[run]? = some req)
    {q : Process} (hq : (after workshop turns).sandbox.processes[p]? = some q) (howner : q.owner = run)
    (hcontrol : q.control ≠ .alive) (hkept : (after workshop turns).slot.isCancelled run = false)
    (hdone : (after workshop turns).slot.active ≠ some run ∨
      (after workshop turns).ready = [] ∧ (after workshop turns).sandbox.waitGate.isHeld = false) :
    ∃ moves, (after workshop turns).slot = Slot.play moves ∧
      ((after workshop turns).view (Slot.story moves) run).Over (printed workshop turns) req.matchLines
        run := by
  obtain ⟨log, hworld, hfits⟩ := sound_after workshop turns
  obtain ⟨moves, hslot, rfl⟩ := hworld.slot
  have hjob := congrArg (·[run]?) (jobs_after workshop turns)
  simp only [List.getElem?_map, hreq, Option.map_some] at hjob
  obtain ⟨job, hjob, horder⟩ := Option.map_eq_some_iff.mp hjob
  have hmatch : job.matchLines = req.matchLines := congrArg Prod.fst horder
  have hfit := hfits run job hjob
  rw [hmatch] at hfit
  refine ⟨moves, hslot, ?_⟩
  rcases hdone with hactive | ⟨hready, hfree⟩
  · exact hfit.over_of_phase hkept (if_neg hactive)
  · have hcallers : (after workshop turns).sandbox.waitGate.callers = [] := hworld.gates .wait hfree
    refine hfit.over_of_quiet (by simp [hready]) ?_ (owned_eq_some.mpr ⟨hq, howner⟩) hcontrol
    simp [Supervision.view, Script.gate, hcallers]

/-! ## What is received of them -/

/-- The events of a run that starts, delivers entries in batches that are never empty, and ends. -/
def Reports (run : Nat) (source : String) (entries : List Entry) (outcome : Outcome)
    (events : List (Event Nat Entry)) : Prop :=
  ∃ batches : List (List Entry),
    events = .started run source :: batches.map (.output run) ++ [.finished run outcome] ∧
      (∀ batch ∈ batches, batch ≠ []) ∧ batches.flatten = entries

theorem Slot.Block.delivered_events (b : Slot.Block) : delivered b.events = b.batches.flatten := by
  have houtput : ∀ batches : List (List Entry),
      delivered (batches.map (.output b.run)) = batches.flatten := fun batches => by
    induction batches with
    | nil => rfl
    | cons batch batches ih => simpa [delivered, Event.items] using ih
  have hfinished : delivered (b.outcome.toList.map (.finished b.run)) = [] := by
    cases b.outcome <;> rfl
  rw [Slot.Block.events, List.cons_append, delivered, List.flatMap_cons]
  exact (delivered_append ..).trans (by rw [houtput, hfinished, List.append_nil])

/-- Whoever listens and has heard a run start has received a report of it when it is over. -/
theorem reports_received {moves : List Slot.Move} {u : Subscriber}
    (hu : u ∈ (Slot.play moves).subscribers) (hl : u.isListening = true) {run : Nat} {source : String}
    (hsaw : .started run source ∈ u.received) {outcome : Outcome}
    (hover : .finished run outcome ∈ Slot.ofRun run (Slot.story moves)) :
    Reports run source (delivered (Slot.ofRun run (Slot.story moves))) outcome
      (Slot.ofRun run u.received) := by
  have hreceived := Slot.ofRun_received hu hl hsaw
  obtain ⟨blocks, htells, hstory, -⟩ := Slot.exists_blocks moves
  have hmem : .finished run outcome ∈ blocks.flatMap Slot.Block.events := by
    rw [← hstory]
    exact List.mem_of_mem_filter hover
  obtain ⟨b, hb, hb'⟩ := Slot.exists_block_of_mem hmem
  obtain rfl : b.run = run := hb'
  have hevents : Slot.ofRun b.run (Slot.story moves) = b.events := by
    rw [hstory]
    exact htells.ofRun_eq hb
  have hstarted : .started b.run source ∈ b.events := by
    rw [← hevents, ← hreceived]
    exact List.mem_filter.mpr ⟨hsaw, by simp [Event.run]⟩
  have hsource : source = b.source := by simpa [Slot.Block.events] using hstarted
  rw [hevents] at hover
  have houtcome : b.outcome = some outcome := by simpa [Slot.Block.events] using hover
  rw [hreceived, hevents]
  refine ⟨b.batches, ?_, htells.nonempty b hb, b.delivered_events.symm⟩
  rw [Slot.Block.events, houtcome, hsource]
  rfl

/-- **A run that ends by itself is delivered exactly.** Its process may print anything in any chunks, and
timers may go off, gates be held and released, and output be cleared in between. When the process has
ended and the run has not been told to end, it is over, unless it has not been woken yet or is held back
at the gate. Whoever listens and has heard it start has then received the entries of the whole text, in
batches that are never empty, and last how it ended. If nobody knows how the process ended, one entry
that tells so follows those of the text. -/
theorem delivers_exactly (workshop : Workshop) (turns : List Turn) {run p : Nat} {req : Request}
    (hreq : (requests turns)[run]? = some req) {q : Process}
    (hq : (after workshop turns).sandbox.processes[p]? = some q) (howner : q.owner = run)
    (hkept : (after workshop turns).slot.isCancelled run = false)
    (hdone : (after workshop turns).slot.active ≠ some run ∨
      (after workshop turns).ready = [] ∧ (after workshop turns).sandbox.waitGate.isHeld = false)
    {u : Subscriber} (hu : u ∈ (after workshop turns).slot.subscribers) (hl : u.isListening = true)
    {source : String} (hsaw : .started run source ∈ u.received) :
    (∀ code, q.control = .exited code →
      Reports run source
        (LineReader.entriesOf req.matchLines (String.join (printed workshop turns p)))
        (.completed code) (Slot.ofRun run u.received)) ∧
    (q.control = .lost →
      Reports run source
        (LineReader.entriesOf req.matchLines (String.join (printed workshop turns p)) ++
          [Entry.ofFailure lossMessage])
        (.failed lossMessage) (Slot.ofRun run u.received)) := by
  refine ⟨fun code hcode => ?_, fun hlost => ?_⟩
  · obtain ⟨moves, hslot, hover⟩ := exists_over hreq hq howner (by simp [hcode]) hkept hdone
    obtain ⟨hdelivered, hfinished⟩ :=
      hover.exited hkept p q code (owned_eq_some.mpr ⟨hq, howner⟩) hcode
    rw [← hdelivered]
    exact reports_received (hslot ▸ hu) hl hsaw hfinished
  · obtain ⟨moves, hslot, hover⟩ := exists_over hreq hq howner (by simp [hlost]) hkept hdone
    obtain ⟨hdelivered, hfinished⟩ :=
      hover.lost hkept p q (owned_eq_some.mpr ⟨hq, howner⟩) hlost
    rw [← hdelivered]
    exact reports_received (hslot ▸ hu) hl hsaw hfinished

/-- Output that is cut within lines, delivered by a timer and by the mark, with the end held back at the
gate until all has been printed. -/
theorem delivers_exactly_cut :
    let workshop : Workshop := ⟨⟨50, 2, "node", "main.mjs"⟩, fun source => .ok source⟩
    let turns : List Turn :=
      [.act (.start "a" "x" false .empty), .settle, .act (.emit 0 "one\ntw"), .act (.advance 50),
        .act .clear, .act (.hold .wait), .act (.emit 0 "o\nthree\nfour"), .act (.exit 0 3), .settle,
        .act (.release .wait), .settle]
    let entries : List Entry :=
      [⟨.log, none, "one"⟩, ⟨.log, none, "two"⟩, ⟨.log, none, "three"⟩, ⟨.log, none, "four"⟩]
    let u : Subscriber :=
      ⟨true, [.started 0 "a", .output 0 (entries.take 1), .output 0 ((entries.drop 1).take 2),
        .output 0 (entries.drop 3), .finished 0 (.completed 3)]⟩
    (requests turns)[0]? = some ⟨"a", "x", false, .empty⟩ ∧
      (after workshop turns).sandbox.processes[0]? = some ⟨0, [], .exited 3, false, false⟩ ∧
      (after workshop turns).slot.isCancelled 0 = false ∧ (after workshop turns).ready = [] ∧
      (after workshop turns).sandbox.waitGate.isHeld = false ∧
      (after workshop turns).slot.subscribers = [u] ∧
      LineReader.entriesOf false (String.join (printed workshop turns 0)) = entries ∧
      Reports 0 "a" (LineReader.entriesOf false (String.join (printed workshop turns 0)))
        (.completed 3) (Slot.ofRun 0 u.received) := by
  intro workshop turns entries u
  have hreq : (requests turns)[0]? = some ⟨"a", "x", false, .empty⟩ := rfl
  have hq : (after workshop turns).sandbox.processes[0]? = some ⟨0, [], .exited 3, false, false⟩ := by
    decide +kernel
  have hkept : (after workshop turns).slot.isCancelled 0 = false := by decide +kernel
  have hready : (after workshop turns).ready = [] := by decide +kernel
  have hfree : (after workshop turns).sandbox.waitGate.isHeld = false := by decide +kernel
  have hsubscribers : (after workshop turns).slot.subscribers = [u] := by decide +kernel
  have hu : u ∈ (after workshop turns).slot.subscribers := by
    rw [hsubscribers]
    exact List.mem_singleton_self u
  have hsaw : .started 0 "a" ∈ u.received := List.mem_cons_self
  have hreports :=
    delivers_exactly workshop turns hreq hq rfl hkept (.inr ⟨hready, hfree⟩) hu rfl hsaw
  exact ⟨hreq, hq, hkept, hready, hfree, hsubscribers, by decide +kernel, hreports.1 3 rfl⟩

end Scratchpad.Run
