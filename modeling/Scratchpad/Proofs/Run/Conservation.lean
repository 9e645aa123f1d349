import Scratchpad.Proofs.Run.Delivery
import Scratchpad.Proofs.Run.Reports
import Scratchpad.Proofs.Slot.Loss

/-!
# Nothing is lost in flight, and nothing comes late

What the process of the active run has printed is at one of four places, in this order: it has been
delivered, or it is collected for the next batch, or the reader keeps it because its line is not ended, or
nobody has read it. A kill may come at any moment. Then what has been delivered stays as it is: nothing
that was on its way is delivered any more, nor anything that the process prints later.

## Main definitions

* `Stage.intake?`: what a job reads with.
* `View.Delivers`: what has been delivered are entries of lines that have been ended.
* `Turn.isKill`: a turn in which the active run is killed.

## Main statements

* `Fits.exists_flow`, `Fits.delivers_of_phase`: what has been delivered of a run that has the slot.
* `exists_kill_since`, `exists_kill`: a run is told to end in a turn in which it has the slot.
* `idle_after`: while nobody has the slot, the output does not grow.
* `in_flight_conserved`: what has been delivered of the active run, and of a run that has been killed.
-/

namespace Scratchpad.Run

open Log Sandbox Supervision Slot

/-! ## Runs that have the slot -/

/-- The process that a job reads from, and what it reads with. -/
def Stage.intake? : Stage → Option (Nat × LineReader × Batcher Entry)
  | .reading p reader batcher _ => some (p, reader, batcher)
  | .awaiting p reader batcher => some (p, reader, batcher)
  | _ => none

section Fits

variable {printed : Nat → List String} {matchLines : Bool} {run : Nat} {v : View} {isWoken : Prop}
  {stage : Stage}

/-- What has been read has been delivered, is collected, or is kept because its line is not ended. -/
theorem View.Flows.exists_chunks {p : Nat} {q : Process} {reader : LineReader} {batcher : Batcher Entry}
    (h : v.Flows printed matchLines p q reader batcher) (hc : v.isCancelled = false) :
    ∃ chunks, printed p = chunks ++ q.unread ∧
      delivered v.told ++ batcher.queue = LineReader.entriesSoFar matchLines (String.join chunks) ∧
      reader = ⟨matchLines, (completeLines (String.join chunks).toList).2⟩ := by
  obtain ⟨-, chunks, hprinted, hfed⟩ := h hc
  rw [LineReader.feedAll_start, Prod.mk.injEq] at hfed
  exact ⟨chunks, hprinted, hfed.1.symm, hfed.2.symm⟩

/-- **What a process has printed has been delivered, is collected or kept, or has not been read**, while its
run has the slot. Unless the run has been woken, everything has been read. -/
theorem Fits.exists_flow (h : Fits printed matchLines run v isWoken stage) (hc : v.isCancelled = false)
    (hphase : v.phase = some .running) :
    ∃ p q reader batcher chunks, stage.intake? = some (p, reader, batcher) ∧ v.owns p = some q ∧
      printed p = chunks ++ q.unread ∧ (¬ isWoken → q.unread = []) ∧
      delivered v.told ++ batcher.queue = LineReader.entriesSoFar matchLines (String.join chunks) ∧
      reader = ⟨matchLines, (completeLines (String.join chunks).toList).2⟩ := by
  have hunspawned : ¬ v.Unspawned := fun hv => by simpa [hphase] using (hv.silent hc).1
  cases stage with
  | fresh source => exact absurd h.1 hunspawned
  | writing part entry => exact absurd h.1 hunspawned
  | spawning => exact absurd h.1 hunspawned
  | reading p reader batcher nextFlush =>
    obtain ⟨q, hq, hflow, hwait⟩ := h
    obtain ⟨chunks, hprinted, hread, hreader⟩ := hflow.exists_chunks hc
    refine ⟨p, q, reader, batcher, chunks, rfl, hq.owns, hprinted, ?_, hread, hreader⟩
    intro hquiet
    exact (hwait.resolve_left hquiet).2.2
  | awaiting p reader batcher =>
    obtain ⟨q, hq, hflow, -, hunread, -⟩ := h
    obtain ⟨chunks, hprinted, hread, hreader⟩ := hflow.exists_chunks hc
    exact ⟨p, q, reader, batcher, chunks, rfl, hq.owns, hprinted, fun _ => hunread, hread, hreader⟩
  | ended =>
    have hnone : v.phase = none := h.phase
    simp [hphase] at hnone

/-- What has been delivered are entries of lines that the process has ended, or nothing if there is no
process. -/
structure View.Delivers (v : View) (printed : Nat → List String) (matchLines : Bool) : Prop where
  ended : ∀ p q, v.owns p = some q →
    delivered v.told <+: LineReader.entriesSoFar matchLines (String.join (printed p))
  nothing : (∀ p, v.owns p = none) → delivered v.told = []

theorem View.Unspawned.delivers (hv : v.Unspawned) (hc : v.isCancelled = false) :
    v.Delivers printed matchLines where
  ended p q hq := by simp [hv.owns p] at hq
  nothing _ := (hv.silent hc).2

/-- What is collected has not been delivered yet, and what is unread may end more lines. -/
theorem View.Attends.delivers {p : Nat} {q : Process} {reader : LineReader} {batcher : Batcher Entry}
    (hq : v.Attends p q) (hflow : v.Flows printed matchLines p q reader batcher)
    (hc : v.isCancelled = false) : v.Delivers printed matchLines where
  ended p' q' hq' := by
    obtain ⟨rfl, rfl⟩ := hq.eq_of_owns hq'
    obtain ⟨chunks, hprinted, hread, -⟩ := hflow.exists_chunks hc
    have hsofar : delivered v.told <+: LineReader.entriesSoFar matchLines (String.join chunks) := by
      rw [← hread]
      exact List.prefix_append _ _
    rw [hprinted, String.join_append]
    exact hsofar.trans (LineReader.isPrefix_entriesSoFar ..)
  nothing hnone := by
    have howns := hq.owns
    rw [hnone p] at howns
    cases howns

/-- **Only entries of lines that are ended have been delivered of a run that has the slot.** -/
theorem Fits.delivers_of_phase (h : Fits printed matchLines run v isWoken stage)
    (hc : v.isCancelled = false) (hphase : v.phase.isSome) : v.Delivers printed matchLines := by
  cases stage with
  | fresh source => exact h.1.delivers hc
  | writing part entry => exact h.1.delivers hc
  | spawning => exact h.1.delivers hc
  | reading p reader batcher nextFlush =>
    obtain ⟨q, hq, hflow, -⟩ := h
    exact hq.delivers hflow hc
  | awaiting p reader batcher =>
    obtain ⟨q, hq, hflow, -⟩ := h
    exact hq.delivers hflow hc
  | ended =>
    have hnone : v.phase = none := h.phase
    simp [hnone] at hphase

end Fits

/-- The active run of a history has a job that marks lines as was asked for, and its view fits. -/
theorem exists_fits_of_active {workshop : Workshop} {turns : List Turn} {run : Nat} {req : Request}
    (hreq : (requests turns)[run]? = some req) (ha : (after workshop turns).slot.active = some run) :
    ∃ moves job, (after workshop turns).slot = play moves ∧
      (after workshop turns).jobs[run]? = some job ∧
      ((after workshop turns).view (story moves) run).isCancelled = false ∧
      ((after workshop turns).view (story moves) run).phase = some (after workshop turns).slot.phase ∧
      Fits (printed workshop turns) req.matchLines run ((after workshop turns).view (story moves) run)
        (run ∈ (after workshop turns).ready) job.stage := by
  obtain ⟨log, hworld, hfits⟩ := sound_after workshop turns
  obtain ⟨moves, hslot, rfl⟩ := hworld.slot
  have hjob := congrArg (·[run]?) (jobs_after workshop turns)
  simp only [List.getElem?_map, hreq, Option.map_some] at hjob
  obtain ⟨job, hjob, horder⟩ := Option.map_eq_some_iff.mp hjob
  have hmatch : job.matchLines = req.matchLines := congrArg Prod.fst horder
  refine ⟨moves, job, hslot, hjob, hworld.coherent.kept run ha, ?_, hmatch ▸ hfits run job hjob⟩
  rw [Supervision.view, if_pos ha]

/-! ## Runs that are killed -/

/-- Whether a move kills the active run, if there is one. -/
def Slot.Move.isKill : Move → Bool
  | .start _ => true
  | .stop => true
  | _ => false

/-- Whether the active run is killed in a turn, if there is one. -/
def Turn.isKill (t : Turn) : Bool := t.move?.any Move.isKill

theorem Turn.exists_move?_of_isKill {t : Turn} (ht : t.isKill = true) :
    ∃ m, t.move? = some m ∧ m.isKill = true := by
  rw [isKill] at ht
  cases hm : t.move? with
  | none => simp [hm] at ht
  | some m => exact ⟨m, rfl, by simpa [hm] using ht⟩

section Kill

variable {s : Slot} {run : Nat}

/-- A run is told to end only when it has the slot and is killed. -/
theorem Slot.Coherent.isCancelled_move (hs : s.Coherent) {m : Move} (hc : (s.move m).isCancelled run = true) :
    s.isCancelled run = true ∨ m.isKill = true ∧ s.active = some run := by
  have hkill : s.killActive.isCancelled run = true → s.isCancelled run = true ∨ s.active = some run := by
    rw [isCancelled_killActive, Bool.or_eq_true, Bool.and_eq_true, beq_iff_eq]
    exact Or.imp_right And.right
  cases m with
  | start source =>
    rw [Slot.move, isCancelled_start] at hc
    exact (hkill hc).imp_right fun ha => ⟨rfl, ha⟩
  | stop => exact (hkill hc).imp_right fun ha => ⟨rfl, ha⟩
  | clear => exact .inl hc
  | subscribe => exact .inl hc
  | unsubscribe i => exact .inl hc
  | deliver run' entries =>
    rw [hs.move_deliver] at hc
    split at hc <;> exact .inl hc
  | setRunning run' =>
    rw [hs.move_setRunning] at hc
    split at hc <;> exact .inl hc
  | finish run' outcome =>
    rw [hs.move_finish] at hc
    split at hc <;> exact .inl hc

/-- No run is told to end by reports. -/
theorem Slot.Coherent.isCancelled_of_reports (hs : s.Coherent) {reports : List Move}
    (hreports : ∀ m ∈ reports, m.reporter?.isSome = true)
    (hc : (reports.foldl Slot.move s).isCancelled run = true) : s.isCancelled run = true := by
  induction reports generalizing s with
  | nil => exact hc
  | cons m reports ih =>
    obtain ⟨hm, hrest⟩ := List.forall_mem_cons.mp hreports
    rcases hs.isCancelled_move (ih (hs.move m) hrest hc) with hc | ⟨hkill, -⟩
    · exact hc
    · cases m with
      | deliver run' entries | setRunning run' | finish run' outcome => cases hkill
      | _ => cases hm

/-- The active run has lost the slot after it is killed, which prints nothing. -/
theorem Slot.Coherent.hasLost_of_isKill (hs : s.Coherent) (ha : s.active = some run) {m : Move}
    (hm : m.isKill = true) : (s.move m).HasLost run ∧ delivered (ofRun run (s.told m)) = [] := by
  have hkill : delivered (ofRun run s.toldKill) = [] := by
    simp [toldKill, ha, ofRun, Event.run, delivered, Event.items]
  have hlatest := hs.latest run ha
  cases m with
  | start source =>
    constructor
    · refine ⟨by rw [length_handles_move]; omega, ?_⟩
      rw [Slot.move, active_start, ne_eq, Option.some.injEq]
      omega
    · have hne : s.handles.length ≠ run := by omega
      rw [told, ofRun_append, delivered_append, hkill]
      simp [ofRun, Event.run, hne]
  | stop => exact ⟨hasLost_killActive hs ha, hkill⟩
  | _ => cases hm

end Kill

/-- **A run is told to end in a turn in which it has the slot.** -/
theorem exists_kill_since {workshop : Workshop} {past turns : List Turn} {run : Nat}
    (hkept : (after workshop past).slot.isCancelled run = false)
    (hc : (after workshop (past ++ turns)).slot.isCancelled run = true) :
    ∃ earlier kill later, turns = earlier ++ kill :: later ∧ kill.isKill = true ∧
      (after workshop (past ++ earlier)).slot.active = some run := by
  induction turns using List.reverseRecOn with
  | nil =>
    rw [List.append_nil, hkept] at hc
    cases hc
  | append_singleton turns t ih =>
    by_cases hbefore : (after workshop (past ++ turns)).slot.isCancelled run = true
    · obtain ⟨earlier, kill, later, rfl, hkill, ha⟩ := ih hbefore
      exact ⟨earlier, kill, later ++ [t], by simp, hkill, ha⟩
    · have hs := coherent_after workshop (past ++ turns)
      rw [← List.append_assoc] at hc
      cases hm : t.move? with
      | none =>
        obtain ⟨reports, hreports, hslot⟩ := exists_reports_of_turn workshop (past ++ turns) hm
        rw [hslot] at hc
        exact absurd (hs.isCancelled_of_reports (fun m hm => (hreports m hm).1) hc) hbefore
      | some m =>
        rw [after_append_singleton, slot_turn_of_move? hm] at hc
        obtain ⟨hkill, ha⟩ := (hs.isCancelled_move hc).resolve_left hbefore
        exact ⟨turns, t, [], rfl, by rwa [Turn.isKill, hm], ha⟩

/-- A run that has been told to end was told so in a turn in which it had the slot. -/
theorem exists_kill {workshop : Workshop} {turns : List Turn} {run : Nat}
    (hc : (after workshop turns).slot.isCancelled run = true) :
    ∃ earlier kill later, turns = earlier ++ kill :: later ∧ kill.isKill = true ∧
      (after workshop earlier).slot.active = some run :=
  exists_kill_since (by simp [after, initial, empty, subscribe, Slot.isCancelled]) ((List.nil_append turns).symm ▸ hc)

/-! ## After the kill -/

/-- What has been delivered of a run that is killed stays as it is, whatever happens later. -/
theorem received_of_killed {workshop : Workshop} {earlier : List Turn} {kill : Turn} (later : List Turn)
    {run : Nat} (hkill : kill.isKill = true) (ha : (after workshop earlier).slot.active = some run)
    {moves : List Move} (hslot : (after workshop earlier).slot = play moves) :
    (∀ i, (after workshop (earlier ++ kill :: later)).slot.receivedOf run i =
      (after workshop (earlier ++ [kill])).slot.receivedOf run i) ∧
    ∀ u ∈ (after workshop (earlier ++ kill :: later)).slot.subscribers, u.isListening = true →
      ∀ source, .started run source ∈ u.received →
        delivered (ofRun run u.received) = delivered (ofRun run (story moves)) := by
  obtain ⟨m, hm, hmkill⟩ := Turn.exists_move?_of_isKill hkill
  have hs := coherent_play moves
  obtain ⟨hlost, hnothing⟩ := hs.hasLost_of_isKill (hslot ▸ ha) hmkill
  have hkilled : (after workshop (earlier ++ [kill])).slot = (play moves).move m := by
    rw [after_append_singleton, slot_turn_of_move? hm, hslot]
  obtain ⟨more, -, -, hmore⟩ := exists_honest_moves_after workshop (earlier ++ [kill]) later
  rw [List.append_assoc, List.singleton_append, hkilled] at hmore
  constructor
  · intro i
    rw [hmore, hkilled]
    exact hlost.receivedOf_foldl (hs.move m) more i
  · intro u hu hl source hsaw
    have hplay : (after workshop (earlier ++ kill :: later)).slot = play (moves ++ m :: more) := by
      rw [hmore, play, play, List.foldl_append, List.foldl_cons]
    have hstory : story (moves ++ m :: more) =
        story moves ++ ((play moves).told m ++ said Slot.move told ((play moves).move m) more) :=
      said_append ..
    rw [ofRun_received (hplay ▸ hu) hl hsaw, hstory, ofRun_append, ofRun_append,
      hlost.ofRun_said (hs.move m), List.append_nil, delivered_append, hnothing, List.append_nil]

/-- A move that starts no run leaves a slot to nobody that nobody has, and its output alone unless it clears
it. -/
theorem Slot.Coherent.idle_move {s : Slot} (hs : s.Coherent) (hidle : s.active = none) {m : Move}
    (hm : m.source? = none) :
    (s.move m).active = none ∧ (s.move m).output = if m = .clear then [] else s.output := by
  cases m with
  | start source => cases hm
  | stop =>
    have hstop : s.move .stop = s := killActive_of_idle hidle
    rw [hstop]
    exact ⟨hidle, rfl⟩
  | clear => exact ⟨hidle, rfl⟩
  | subscribe => exact ⟨hidle, rfl⟩
  | unsubscribe i => exact ⟨hidle, rfl⟩
  | deliver run _ | setRunning run | finish run _ =>
    have hne : s.active ≠ some run := by simp [hidle]
    rw [hs.move_of_reporter? rfl hne]
    exact ⟨hidle, rfl⟩

theorem Turn.move?_eq_clear_iff {t : Turn} : t.move? = some .clear ↔ t = .act .clear := by
  cases t with
  | settle => simp [move?]
  | act action => cases action <;> simp [move?]

/-- Only what the owner of the slot does bears on a slot that nobody has. -/
theorem idle_turn {workshop : Workshop} {turns : List Turn} {t : Turn}
    (hidle : (after workshop turns).slot.active = none) (hnone : t.request? = none) :
    (after workshop (turns ++ [t])).slot.active = none ∧
      (after workshop (turns ++ [t])).slot.output =
        if t = .act .clear then [] else (after workshop turns).slot.output := by
  have hs := coherent_after workshop turns
  cases hm : t.move? with
  | none =>
    obtain ⟨reports, hreports, hslot⟩ := exists_reports_of_turn workshop turns hm
    have hclear : t ≠ .act .clear := by
      rintro rfl
      cases hm
    rw [hslot, hs.foldl_reports_of_idle hidle fun m hm => (hreports m hm).1, if_neg hclear]
    exact ⟨hidle, rfl⟩
  | some m =>
    have hsource := t.bind_source?_move?
    rw [hm, hnone] at hsource
    have hclear : t = .act .clear ↔ m = .clear := by
      rw [← Turn.move?_eq_clear_iff, hm, Option.some.injEq]
    rw [after_append_singleton, slot_turn_of_move? hm]
    simpa only [hclear] using hs.idle_move hidle hsource

/-- **While nobody has the slot, the output does not grow.** It is forgotten when it is cleared. -/
theorem idle_after {workshop : Workshop} {earlier later : List Turn}
    (hidle : (after workshop earlier).slot.active = none) (hnone : ∀ t ∈ later, t.request? = none) :
    (after workshop (earlier ++ later)).slot.active = none ∧
      (after workshop (earlier ++ later)).slot.output =
        if .act .clear ∈ later then [] else (after workshop earlier).slot.output := by
  induction later using List.reverseRecOn with
  | nil => simpa using hidle
  | append_singleton later t ih =>
    obtain ⟨hactive, houtput⟩ := ih fun t' ht' => hnone t' (by simp [ht'])
    obtain ⟨hactive', houtput'⟩ := idle_turn hactive (hnone t (by simp))
    rw [← List.append_assoc]
    refine ⟨hactive', houtput'.trans ?_⟩
    rw [houtput]
    by_cases ht : t = .act .clear
    · simp [ht]
    · simp [ht, Ne.symm ht]

/-! ## What is conserved -/

/-- **Nothing is lost in flight, and nothing comes late.** While the program of the active run runs, what has
been delivered of the run to whoever listens and has heard it start, and then what its job has collected,
are the entries of the lines that are ended in what the job has read of the output of its process, and the
reader keeps the rest. What is unread follows, and is nothing when every job waits.

A run that has been told to end was killed in a turn in which it had the slot. Of the lines that its process
had ended before, the first ones have been delivered to whoever listens and has heard the run start, and if
it had no process, nothing has. After the kill nobody receives anything of the run any more. If no other
run is started, the output does not grow either. -/
theorem in_flight_conserved (workshop : Workshop) (turns : List Turn) {run : Nat} {req : Request}
    (hreq : (requests turns)[run]? = some req) :
    ((after workshop turns).slot.active = some run → (after workshop turns).slot.phase = .running →
      ∃ job p q reader batcher chunks, (after workshop turns).jobs[run]? = some job ∧
        job.stage.intake? = some (p, reader, batcher) ∧
        (after workshop turns).sandbox.processes[p]? = some q ∧ q.owner = run ∧
        printed workshop turns p = chunks ++ q.unread ∧
        ((after workshop turns).ready = [] → q.unread = []) ∧
        reader = ⟨req.matchLines, (completeLines (String.join chunks).toList).2⟩ ∧
        ∀ u ∈ (after workshop turns).slot.subscribers, u.isListening = true →
          ∀ source, .started run source ∈ u.received →
            delivered (ofRun run u.received) ++ batcher.queue =
              LineReader.entriesSoFar req.matchLines (String.join chunks)) ∧
    ((after workshop turns).slot.isCancelled run = true →
      ∃ earlier kill later, turns = earlier ++ kill :: later ∧ kill.isKill = true ∧
        (after workshop earlier).slot.active = some run ∧
        (∀ u ∈ (after workshop turns).slot.subscribers, u.isListening = true →
          ∀ source, .started run source ∈ u.received →
            (∀ (p : Nat) (q : Process), (after workshop earlier).sandbox.processes[p]? = some q →
              q.owner = run → delivered (ofRun run u.received) <+:
                LineReader.entriesSoFar req.matchLines (String.join (printed workshop earlier p))) ∧
            ((∀ q ∈ (after workshop earlier).sandbox.processes, q.owner ≠ run) →
              delivered (ofRun run u.received) = [])) ∧
        (∀ i, (after workshop turns).slot.receivedOf run i =
          (after workshop (earlier ++ [kill])).slot.receivedOf run i) ∧
        (kill = .act .stop → (∀ t ∈ later, t.request? = none) →
          (after workshop turns).slot.output =
            if .act .clear ∈ later then [] else (after workshop earlier).slot.output)) := by
  constructor
  · intro ha hrunning
    obtain ⟨moves, job, hslot, hjob, hc, hphase, hfits⟩ := exists_fits_of_active hreq ha
    rw [hrunning] at hphase
    obtain ⟨p, q, reader, batcher, chunks, hintake, howns, hprinted, hunread, hflow, hreader⟩ :=
      hfits.exists_flow hc hphase
    obtain ⟨hq, howner⟩ := owned_eq_some.mp howns
    refine ⟨job, p, q, reader, batcher, chunks, hjob, hintake, hq, howner, hprinted, ?_, hreader, ?_⟩
    · intro hready
      exact hunread (by simp [hready])
    · intro u hu hl source hsaw
      rw [ofRun_received (hslot ▸ hu) hl hsaw]
      exact hflow
  · intro hc
    obtain ⟨earlier, kill, later, rfl, hkill, ha⟩ := exists_kill hc
    have hreq' : (requests earlier)[run]? = some req := by
      obtain ⟨log, hworld, -⟩ := sound_after workshop earlier
      have hlatest := hworld.coherent.latest run ha
      have hlength := (length_requests workshop earlier).trans hworld.length_jobs
      rwa [requests_append, List.getElem?_append_left (by omega)] at hreq
    obtain ⟨moves, job, hslot, -, hc', hphase, hfits⟩ := exists_fits_of_active hreq' ha
    have hdelivers := hfits.delivers_of_phase hc' (by rw [hphase]; rfl)
    obtain ⟨hstays, hreceived⟩ := received_of_killed later hkill ha hslot
    refine ⟨earlier, kill, later, rfl, hkill, ha, ?_, hstays, ?_⟩
    · intro u hu hl source hsaw
      rw [hreceived u hu hl source hsaw]
      refine ⟨fun p q hq howner => hdelivers.ended p q (owned_eq_some.mpr ⟨hq, howner⟩), fun hnone => ?_⟩
      apply hdelivers.nothing
      intro p
      rw [← Option.not_isSome_iff_eq_none, Option.isSome_iff_exists]
      rintro ⟨q, hq⟩
      obtain ⟨hp, howner⟩ := owned_eq_some.mp hq
      exact hnone q (List.mem_of_getElem? hp) howner
    · rintro rfl hnone
      have hstopped : (after workshop (earlier ++ [.act .stop])).slot =
          (after workshop earlier).slot.killActive := by
        rw [after_append_singleton]
        exact slot_turn_of_move? (m := .stop) rfl
      have hidle : (after workshop (earlier ++ [.act .stop])).slot.active = none := by
        rw [hstopped, active_killActive]
      have houtput : (after workshop earlier).slot.killActive.output =
          (after workshop earlier).slot.output := by
        rw [killActive, ha]
        rfl
      have hlater := (idle_after hidle hnone).2
      rwa [List.append_assoc, List.singleton_append, hstopped, houtput] at hlater

/-- Two lines have been delivered, one is collected and one is not ended. Then the process ends that line, but
the run is stopped before anybody reads it, and the process prints on. -/
theorem in_flight_conserved_stopped :
    let workshop : Workshop := ⟨⟨50, 2, "node", "main.mjs"⟩, fun source => .ok source⟩
    let turns : List Turn :=
      [.act (.start "a" "x" false .empty), .settle, .act (.emit 0 "zero\none\n"), .settle,
        .act (.emit 0 "two\nth"), .settle]
    let stopped : List Turn :=
      turns ++ [.act (.emit 0 "ree\n"), .act .stop, .act (.emit 0 "late\n"), .settle]
    let req : Request := ⟨"a", "x", false, .empty⟩
    let told : List (Event Nat Entry) :=
      [.started 0 "a", .output 0 [⟨.log, none, "zero"⟩, ⟨.log, none, "one"⟩]]
    (requests turns)[0]? = some req ∧ (after workshop turns).slot.active = some 0 ∧
      (after workshop turns).slot.phase = .running ∧ (after workshop turns).ready = [] ∧
      (after workshop turns).slot.subscribers = [⟨true, told⟩] ∧
      (∃ job p reader batcher, (after workshop turns).jobs[0]? = some job ∧
        job.stage.intake? = some (p, reader, batcher) ∧
        reader = ⟨false, (completeLines (String.join (printed workshop turns p)).toList).2⟩ ∧
        delivered (ofRun 0 told) ++ batcher.queue =
          LineReader.entriesSoFar false (String.join (printed workshop turns p))) ∧
      (requests stopped)[0]? = some req ∧ (after workshop stopped).slot.isCancelled 0 = true ∧
      (after workshop stopped).slot.subscribers = [⟨true, told ++ [.finished 0 .killed]⟩] ∧
      ∃ earlier kill later, stopped = earlier ++ kill :: later ∧ kill.isKill = true ∧
        (after workshop earlier).slot.active = some 0 ∧
        ∀ (p : Nat) (q : Process), (after workshop earlier).sandbox.processes[p]? = some q → q.owner = 0 →
          delivered (ofRun 0 (told ++ [.finished 0 .killed])) <+:
            LineReader.entriesSoFar false (String.join (printed workshop earlier p)) := by
  intro workshop turns stopped req told
  have hreq : (requests turns)[0]? = some req := rfl
  have hactive : (after workshop turns).slot.active = some 0 := by decide +kernel
  have hrunning : (after workshop turns).slot.phase = .running := by decide +kernel
  have hready : (after workshop turns).ready = [] := by decide +kernel
  have hsubscribers : (after workshop turns).slot.subscribers = [⟨true, told⟩] := by decide +kernel
  have hreq' : (requests stopped)[0]? = some req := rfl
  have hcancelled : (after workshop stopped).slot.isCancelled 0 = true := by decide +kernel
  have hsubscribers' : (after workshop stopped).slot.subscribers =
      [⟨true, told ++ [.finished 0 .killed]⟩] := by decide +kernel
  refine ⟨hreq, hactive, hrunning, hready, hsubscribers, ?_, hreq', hcancelled, hsubscribers', ?_⟩
  · obtain ⟨job, p, q, reader, batcher, chunks, hjob, hintake, -, -, hprinted, hunread, hreader, hflow⟩ :=
      (in_flight_conserved workshop turns hreq).1 hactive hrunning
    rw [hunread hready, List.append_nil] at hprinted
    have hu : ⟨true, told⟩ ∈ (after workshop turns).slot.subscribers := by
      rw [hsubscribers]
      exact List.mem_singleton_self _
    exact ⟨job, p, reader, batcher, hjob, hintake, hprinted ▸ hreader,
      hprinted ▸ hflow _ hu rfl "a" List.mem_cons_self⟩
  · obtain ⟨earlier, kill, later, hsplit, hkill, ha, hfirst, -, -⟩ :=
      (in_flight_conserved workshop stopped hreq').2 hcancelled
    have hu : ⟨true, told ++ [.finished 0 .killed]⟩ ∈ (after workshop stopped).slot.subscribers := by
      rw [hsubscribers']
      exact List.mem_singleton_self _
    exact ⟨earlier, kill, later, hsplit, hkill, ha, (hfirst _ hu rfl "a" List.mem_cons_self).1⟩

end Scratchpad.Run
