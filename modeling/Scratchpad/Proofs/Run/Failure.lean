import Scratchpad.Proofs.Run.Errands
import Scratchpad.Proofs.Slot.Loss

/-!
# Errands that fail

A run that fails on one of its errands ends there. If it has the slot, whoever listens is told of the
failure once, by one entry and by the outcome, and the slot is free. If it has been told to end, nobody
learns of the failure, and the slot stays as it is. Either way the failing call leaves nothing behind, and
the run does nothing afterwards.

## Main definitions

* `Stride.next`: the world after a stride.

## Main statements

* `Leg.go_of_failure?`: a run goes no further when an errand fails.
* `Reported.of_mem_stridesTurn`: what is left of a turn after a stride is reports.
* `failure_is_told_once`: what is told of a failure, and what the run leaves behind.
-/

namespace Scratchpad.Run

open Log Sandbox Supervision Slot

variable {workshop : Workshop} {run : Nat} {job : Job} {w : Supervision} {leg : Leg} {message : String}

/-- The world after a stride. -/
def Stride.next (workshop : Workshop) (t : Stride) : Supervision :=
  (go workshop t.run t.job t.world t.leg).2

/-! ## The failing stride -/

/-- **A run goes no further when an errand fails.** -/
theorem Leg.go_of_failure? (h : leg.failure? workshop run job w.sandbox = some message) :
    ∃ sandbox, go workshop run job w leg = (.rest, { w with sandbox := sandbox }.fail run job message) := by
  cases leg with
  | begin source =>
    rw [failure?] at h
    rw [go]
    cases hcomposed : composed workshop job.matchLines source with
    | error failure =>
      rw [hcomposed] at h
      obtain rfl : failure.message = message := Option.some.inj h
      exact ⟨w.sandbox, rfl⟩
    | ok entry =>
      rw [hcomposed] at h
      cases h
  | write part entry =>
    rw [failure?] at h
    rw [go]
    rcases hwrite : w.sandbox.write (part.path workshop) (part.contents entry) with ⟨failure | _, sandbox⟩
    · rw [hwrite] at h
      obtain rfl : failure.message = message := Option.some.inj h
      exact ⟨sandbox, rfl⟩
    · rw [hwrite] at h
      cases h
  | spawn =>
    rw [failure?, Job.launch] at h
    rw [go]
    dsimp only
    rcases hspawn : w.sandbox.spawn run ⟨_, _, _⟩ with ⟨failure | p, sandbox⟩
    · rw [hspawn] at h
      obtain rfl : failure.message = message := Option.some.inj h
      exact ⟨sandbox, rfl⟩
    · rw [hspawn] at h
      cases h
  | _ => cases h

/-- A run on an errand has no process yet. -/
theorem OnLeg.unspawned {printed : Nat → List String} {matchLines : Bool} {v : View} {isWoken : Prop}
    {stage : Stage} (h : OnLeg printed matchLines run v isWoken stage leg)
    (herrand : leg.errand?.isSome = true) : v.Unspawned := by
  cases leg with
  | begin source | write part entry | spawn => exact h
  | _ => cases herrand

/-- What a run that fails reports. -/
def failureReports (run : Nat) (message : String) : List Move :=
  [.deliver run [Entry.ofFailure message], .finish run (.failed message)]

/-- A failure is reported by an entry and then by the outcome. -/
theorem slot_fail (hgen : (w.slot.handles.map (·.generation))[run]? = some job.generation) :
    (w.fail run job message).slot = (failureReports run message).foldl Slot.move w.slot := by
  rw [List.getElem?_map] at hgen
  obtain ⟨handle, hhandle, hgen⟩ := Option.map_eq_some_iff.mp hgen
  have hdeliver : w.slot.move (.deliver run [Entry.ofFailure message]) =
      w.slot.deliver job.generation run [Entry.ofFailure message] := by
    simp [Slot.move, hhandle, hgen]
  rw [failureReports, List.foldl_cons, hdeliver, List.foldl_cons, Slot.move, Slot.handles_deliver, hhandle,
    Option.elim_some, hgen]
  rfl

section Slot

variable {s : Slot}

/-- **The failure of a run that has the slot is told, and the slot is free.** -/
theorem Slot.Coherent.foldl_failureReports (hs : s.Coherent) (ha : s.active = some run) :
    (failureReports run message).foldl Slot.move s =
        { s with
          phase := .idle
          active := none
          output := s.output ++ [Entry.ofFailure message]
          lastOutcome := some (.failed message)
          subscribers := s.subscribers.map
            (hear [.output run [Entry.ofFailure message], .finished run (.failed message)]) } ∧
      said Slot.move Slot.told s (failureReports run message) =
        [.output run [Entry.ofFailure message], .finished run (.failed message)] := by
  have hdeliver := hs.move_deliver run [Entry.ofFailure message]
  rw [if_pos ⟨List.cons_ne_nil _ _, ha⟩] at hdeliver
  have ha' : (s.move (.deliver run [Entry.ofFailure message])).active = some run := by
    rw [hdeliver]
    exact ha
  have hs' := hs.move (.deliver run [Entry.ofFailure message])
  have hfinish := hs'.move_finish run (.failed message)
  rw [if_pos ha', hdeliver] at hfinish
  constructor
  · rw [failureReports, List.foldl_cons, hdeliver, List.foldl_cons, hfinish, List.foldl_nil]
    simp [Slot.emit, notify_eq_hear, hear_hear]
  · rw [failureReports, said, said, said_nil, hdeliver]
    simp [Slot.told, ha]

/-- The failure of a run that does not have the slot is nothing to the slot. -/
theorem Slot.Coherent.foldl_failureReports_of_ne (hs : s.Coherent) (ha : s.active ≠ some run) :
    (failureReports run message).foldl Slot.move s = s := by
  rw [failureReports, List.foldl_cons, hs.move_of_reporter? rfl ha, List.foldl_cons,
    hs.move_of_reporter? rfl ha, List.foldl_nil]

/-- Of a run that has the slot and has delivered nothing, its start is all that has been told. -/
theorem Slot.exists_started {moves : List Move} (ha : (play moves).active = some run)
    (hnothing : delivered (ofRun run (story moves)) = []) :
    ∃ source, ofRun run (story moves) = [.started run source] := by
  obtain ⟨blocks, htells, hstory, -⟩ := exists_blocks moves
  obtain ⟨init, b, rfl, rfl, hopen, -⟩ := htells.exists_last (coherent_play moves) ha
  have hb : b ∈ init ++ [b] := by simp
  have hevents : ofRun b.run (story moves) = b.events := by
    rw [hstory]
    exact htells.ofRun_eq hb
  have hbatches : b.batches = [] := by
    rw [hevents, b.delivered_events, List.flatten_eq_nil_iff] at hnothing
    apply List.eq_nil_iff_forall_not_mem.mpr
    exact fun batch hbatch => htells.nonempty b hb batch hbatch (hnothing batch hbatch)
  refine ⟨b.source, ?_⟩
  rw [hevents, Block.events, hbatches, hopen]
  rfl

end Slot

/-! ## The rest of the turn -/

/-- What is left of a job's way after a stride is reports. -/
theorem Reported.of_mem_strides {t : Stride} (ht : t ∈ strides workshop w run) :
    Reported (t.next workshop) (Supervision.resume workshop w run) := by
  obtain ⟨hjob, hrun, hspares⟩ :=
    stride_induction (P := fun position => Spares run w position.2) ht (fun _ => .depart w)
      fun leg w' hw => hw.trans (.go w' leg)
  subst hrun
  obtain ⟨f, hf⟩ := (hspares.trans (Spares.go t.world t.leg)).jobs
  have hjob' : (t.next workshop).jobs[t.run]? = some { t.job with stage := f t.job.stage } := by
    rw [Stride.next, hf, List.getElem?_modify_eq, hjob]
    rfl
  obtain ⟨n, hn, hposition⟩ :
      ∃ n < 10, goOn workshop t.run t.job n (depart t.run t.job w) = (t.leg, t.world) := by
    simp only [strides, hjob, List.mem_map, List.mem_iterate] at ht
    obtain ⟨position, ⟨n, hn, hposition⟩, ht⟩ := ht
    refine ⟨n, hn, ?_⟩
    rw [goOn, ← hposition, ← ht]
  have hrest : goOn workshop t.run t.job (9 - n) (go workshop t.run t.job t.world t.leg) =
      (.rest, Supervision.resume workshop w t.run) := by
    have hten : 10 = 9 - n + 1 + n := by omega
    rw [← goOn_succ, ← hposition, ← resume_eq_go hjob]
    simp only [goOn]
    rw [← Function.iterate_add_apply, ← hten]
  have hlegs : Spares t.run (t.next workshop) (Leg.rest, Supervision.resume workshop w t.run).2 ∧
      Hears t.run t.job.generation (t.next workshop).slot
        (Leg.rest, Supervision.resume workshop w t.run).2.slot := by
    rw [← hrest]
    exact Function.Iterate.rec (fun position : Leg × Supervision =>
      Spares t.run (t.next workshop) position.2 ∧
        Hears t.run t.job.generation (t.next workshop).slot position.2.slot) ⟨.refl _, .refl _⟩
      (fun position hp => ⟨hp.1.trans (.go _ _), hp.2.trans (.go _ _)⟩) (9 - n)
  exact .of_hears hjob' hlegs.1 hlegs.2

/-- **What is left of a turn after a stride is reports.** -/
theorem Reported.of_mem_stridesTurn {t : Stride} {turn : Turn} (ht : t ∈ stridesTurn workshop w turn) :
    Reported (t.next workshop) (Supervision.turn workshop w turn) := by
  obtain ⟨before, after, hready, ht'⟩ := exists_of_mem_stridesTurn ht
  have hsettle : Reported (t.next workshop) (Supervision.settle workshop w) := by
    rw [Supervision.settle, hready, List.foldl_append, List.foldl_cons]
    exact List.foldlRecOn (motive := Reported (t.next workshop)) after (Supervision.resume workshop)
      (.of_mem_strides ht') fun w' hw' run _ => hw'.trans (.resume w' run)
  cases turn with
  | settle => exact hsettle
  | act action =>
    cases action with
    | advance ms => exact hsettle.trans (.elapse _ ms)
    | _ => cases ht

/-- A stride of a turn is one of the history. -/
theorem mem_itinerary_of_mem_stridesTurn {earlier : List Turn} {turn : Turn} (later : List Turn) {t : Stride}
    (ht : t ∈ stridesTurn workshop (after workshop earlier) turn) :
    t ∈ itinerary workshop (earlier ++ turn :: later) := by
  rw [itinerary, said_append, said]
  exact List.mem_append_right _ (List.mem_append_left _ ht)

/-! ## What is told of a failure -/

/-- The world in which a run goes on an errand: the run has the slot, or it has been told to end. Until then
its start is all that has been told of a run that has the slot. -/
theorem exists_moves_of_errand {turns : List Turn} {t : Stride} (ht : t ∈ itinerary workshop turns)
    (herrand : t.leg.errand?.isSome = true) :
    (t.world.slot.handles.map (·.generation))[t.run]? = some t.job.generation ∧
      (t.world.slot.active = some t.run ∨ t.world.slot.isCancelled t.run = true) ∧
      ∃ moves, t.world.slot = play moves ∧ (t.world.slot.active = some t.run →
        ∃ source, ofRun t.run (story moves) = [.started t.run source]) := by
  obtain ⟨printed, woken, hunderway⟩ := underway_of_mem_itinerary ht
  obtain ⟨hs, hgen⟩ := hunderway.exists_generation
  obtain ⟨v, stage, ⟨log, helse, -, rfl⟩, hleg⟩ := hunderway
  have hsilent := (hleg.unspawned herrand).silent
  obtain ⟨moves, hslot, rfl⟩ := helse.world.slot
  dsimp only at hs hgen hslot hsilent
  refine ⟨hgen, ?_, moves, hslot, ?_⟩
  · cases hc : t.world.slot.isCancelled t.run with
    | true => exact .inr rfl
    | false =>
      have hphase := (hsilent hc).1
      have hsome := isSome_phase_view t.world (story moves) t.run
      rw [hphase] at hsome
      exact .inl (hsome.mp rfl)
  · intro ha
    have hnothing := (hsilent (hs.kept t.run ha)).2
    exact exists_started (hslot ▸ ha) hnothing

/-- Every job has the generation of its handle after a stride. -/
theorem generations_next {turns : List Turn} {t : Stride} (ht : t ∈ itinerary workshop turns) :
    (t.next workshop).jobs.map (·.generation) = (t.next workshop).slot.handles.map (·.generation) := by
  obtain ⟨printed, woken, hunderway⟩ := underway_of_mem_itinerary ht
  obtain ⟨v, stage, ⟨log, helse, -, -⟩, -⟩ := hunderway.go workshop
  exact helse.world.generations

/-- A slot that is free after a stride is so until the turn is over. -/
theorem slot_after_of_idle {earlier : List Turn} {turn : Turn} {t : Stride}
    (ht : t ∈ stridesTurn workshop (after workshop earlier) turn) (hs : (t.next workshop).slot.Coherent)
    (hidle : (t.next workshop).slot.active = none) :
    (after workshop (earlier ++ [turn])).slot = (t.next workshop).slot := by
  have hreported : Reported (t.next workshop) (Supervision.turn workshop (after workshop earlier) turn) :=
    .of_mem_stridesTurn ht
  obtain ⟨reports, hreports, hslot, -⟩ :=
    hreported.reports (generations_next (mem_itinerary_of_mem_stridesTurn [] ht))
  rw [after_append_singleton, hslot]
  exact hs.foldl_reports_of_idle hidle fun m hm => (hreports m hm).1

/-- Whoever has heard a run start that fails has received its start, the failure and nothing else. -/
theorem received_of_failure {s s' : Slot} {moves more : List Move} (hs : s = play moves)
    (ha : s.active = some run) {source : String}
    (hstarted : ofRun run (story moves) = [.started run source])
    (hs' : s' = ((failureReports run message).foldl Slot.move s)) (hlost : s'.HasLost run) {u : Subscriber}
    (hu : u ∈ (more.foldl Slot.move s').subscribers) (hl : u.isListening = true) {source' : String}
    (hsaw : .started run source' ∈ u.received) :
    ofRun run u.received =
      [.started run source', .output run [Entry.ofFailure message], .finished run (.failed message)] := by
  subst hs hs'
  have hcoherent := coherent_play moves
  have hplay : more.foldl Slot.move ((failureReports run message).foldl Slot.move (play moves)) =
      play (moves ++ (failureReports run message ++ more)) := by
    rw [play, play, List.foldl_append, List.foldl_append]
  have hstory : story (moves ++ (failureReports run message ++ more)) =
      story moves ++ (said Slot.move Slot.told (play moves) (failureReports run message) ++
        said Slot.move Slot.told ((failureReports run message).foldl Slot.move (play moves)) more) := by
    rw [story, said_append, said_append]
    rfl
  obtain ⟨-, htold⟩ : _ ∧ said Slot.move Slot.told (play moves) (failureReports run message) = _ :=
    hcoherent.foldl_failureReports ha
  have hreceived : ofRun run u.received =
      [.started run source, .output run [Entry.ofFailure message], .finished run (.failed message)] := by
    rw [ofRun_received (hplay ▸ hu) hl hsaw, hstory, ofRun_append, ofRun_append, hstarted, htold,
      hlost.ofRun_said (hcoherent.foldl _)]
    simp [ofRun, Event.run]
  have hmem : .started run source' ∈ ofRun run u.received :=
    List.mem_filter.mpr ⟨hsaw, by simp [Event.run]⟩
  obtain rfl : source' = source := by simpa [hreceived] using hmem
  exact hreceived

/-- **A failure is told once.** An errand of a run fails at some stride of a history: its source does not
compile, one of its files cannot be written, or its program cannot be started. Then the run has the slot, or
it has been told to end.

If it has the slot, the slot hears of one entry and of the outcome, both with the message of the failure, and
nobody has the slot. So it stays until the turn is over, and nobody receives anything more of the run ever.
Whoever listens and has heard the run start has received its start, the entry and the outcome. If the run has
been told to end, the slot stays as it is, with all that has been told.

The failing call itself leaves nothing behind. All that the run ever does that stays is nothing if its
source does not compile or if the preamble cannot be written, and it is the preamble alone if the composed
source cannot be written. -/
theorem failure_is_told_once (workshop : Workshop) (earlier : List Turn) (turn : Turn) (later : List Turn)
    {t : Stride} (ht : t ∈ stridesTurn workshop (after workshop earlier) turn) {message : String}
    (hfailure : t.failure? workshop = some message) :
    (t.world.slot.active = some t.run ∨ t.world.slot.isCancelled t.run = true) ∧
    (t.world.slot.active = some t.run →
      (t.next workshop).slot =
        { t.world.slot with
          phase := .idle
          active := none
          output := t.world.slot.output ++ [⟨.error, none, "[Error] " ++ message⟩]
          lastOutcome := some (.failed message)
          subscribers := t.world.slot.subscribers.map
            (hear [.output t.run [⟨.error, none, "[Error] " ++ message⟩],
              .finished t.run (.failed message)]) } ∧
      (after workshop (earlier ++ [turn])).slot = (t.next workshop).slot ∧
      (∀ i, (after workshop (earlier ++ turn :: later)).slot.receivedOf t.run i =
        (t.next workshop).slot.receivedOf t.run i) ∧
      ∀ u ∈ (after workshop (earlier ++ turn :: later)).slot.subscribers, u.isListening = true →
        ∀ source, .started t.run source ∈ u.received →
          ofRun t.run u.received =
            [.started t.run source, .output t.run [⟨.error, none, "[Error] " ++ message⟩],
              .finished t.run (.failed message)]) ∧
    (t.world.slot.isCancelled t.run = true → (t.next workshop).slot = t.world.slot) ∧
    (t.next workshop).sandbox.record = t.world.sandbox.record ∧
    ∃ errand, t.leg.errand? = some errand ∧
      errand.Leaves workshop (deedsOf workshop (earlier ++ turn :: later) t.run) := by
  have hmem := mem_itinerary_of_mem_stridesTurn later ht
  have herrand : t.leg.errand?.isSome = true := Leg.isSome_errand?_of_failure? hfailure
  obtain ⟨hgen, hside, moves, hslot, hstarted⟩ := exists_moves_of_errand hmem herrand
  have hs : t.world.slot.Coherent := by
    rw [hslot]
    exact coherent_play moves
  have hreports : (t.next workshop).slot = (failureReports t.run message).foldl Slot.move t.world.slot := by
    obtain ⟨sandbox, hgo⟩ := Leg.go_of_failure? hfailure
    rw [Stride.next, hgo]
    exact slot_fail (w := { t.world with sandbox := sandbox }) hgen
  refine ⟨hside, ?_, ?_, ?_, ?_⟩
  · intro ha
    have hnext := hreports.trans (hs.foldl_failureReports ha).1
    have hs' : (t.next workshop).slot.Coherent := by
      rw [hreports]
      exact hs.foldl _
    have hidle : (t.next workshop).slot.active = none := by rw [hnext]
    have hlost : (t.next workshop).slot.HasLost t.run := by
      refine ⟨?_, by simp [hidle]⟩
      have hrun := (List.getElem?_eq_some_iff.mp hgen).1
      rw [List.length_map] at hrun
      rwa [hnext]
    have hturn := slot_after_of_idle ht hs' hidle
    obtain ⟨more, -, -, hmore⟩ := exists_honest_moves_after workshop (earlier ++ [turn]) later
    rw [List.append_assoc, List.singleton_append, hturn] at hmore
    refine ⟨hnext, hturn, ?_, ?_⟩
    · intro i
      rw [hmore]
      exact hlost.receivedOf_foldl hs' more i
    · intro u hu hl source hsaw
      obtain ⟨source', hsource⟩ := hstarted ha
      rw [hmore] at hu
      exact received_of_failure hslot ha hsource hreports hlost hu hl hsaw
  · intro hc
    rw [hreports]
    apply hs.foldl_failureReports_of_ne
    intro ha
    rw [hs.kept t.run ha] at hc
    cases hc
  · have hdeed : t.deed? workshop = none := Leg.deed?_of_failure? hfailure
    have hrecord : (t.next workshop).sandbox.record =
        (t.deed? workshop).elim t.world.sandbox.record (Deed.apply t.world.sandbox.record) :=
      record_go t.world t.leg
    rwa [hdeed] at hrecord
  · obtain ⟨errand, herrand⟩ := Option.isSome_iff_exists.mp herrand
    exact ⟨errand, herrand, deedsOf_of_failure hmem hfailure herrand⟩

/-- A program cannot be started after its run has waited at the gate. The run has written both files, and
another run is started later. -/
theorem failure_is_told_once_spawn :
    let workshop : Workshop := ⟨⟨50, 2, "node", "main.mjs"⟩, fun source => .ok source⟩
    let earlier : List Turn :=
      [.act (.hold .spawn), .act (.start "a" "x" false .empty), .settle, .act (.failSpawn "not found"),
        .act (.release .spawn)]
    let later : List Turn := [.act (.start "b" "y" false .empty), .settle]
    let message : String := "failed to spawn \x60node\x60: not found"
    let told : List (Event Nat Entry) :=
      [.started 0 "a", .output 0 [⟨.error, none, "[Error] " ++ message⟩], .finished 0 (.failed message)]
    (after workshop (earlier ++ .settle :: later)).slot.subscribers = [⟨true, told ++ [.started 1 "b"]⟩] ∧
      ofRun 0 (told ++ [.started 1 "b"]) = told ∧
      ∃ t ∈ stridesTurn workshop (after workshop earlier) .settle, t.failure? workshop = some message ∧
        t.world.slot.active = some 0 ∧
        (after workshop (earlier ++ [.settle])).slot.phase = .idle ∧
        (after workshop (earlier ++ [.settle])).slot.lastOutcome = some (.failed message) ∧
        ∃ entry, deedsOf workshop (earlier ++ .settle :: later) 0 =
          [.write preambleFile preamble, .write "main.mjs" entry] := by
  intro workshop earlier later message told
  have hsubscribers : (after workshop (earlier ++ .settle :: later)).slot.subscribers =
      [⟨true, told ++ [.started 1 "b"]⟩] := by decide +kernel
  have hfirst : (stridesTurn workshop (after workshop earlier) .settle)[0]?.map (fun t =>
      (t.run, t.failure? workshop, t.world.slot.active, t.leg.errand?)) =
        some (0, some message, some 0, some .start) := by decide +kernel
  obtain ⟨t, ht, hfacts⟩ := Option.map_eq_some_iff.mp hfirst
  simp only [Prod.mk.injEq] at hfacts
  obtain ⟨hrun, hfailure, hactive, herrand⟩ := hfacts
  have hmem : t ∈ stridesTurn workshop (after workshop earlier) .settle := List.mem_of_getElem? ht
  obtain ⟨-, htold, -, -, errand, herrand', hleaves⟩ :=
    failure_is_told_once workshop earlier .settle later hmem hfailure
  obtain ⟨hnext, hturn, -, hreceived⟩ := htold (by rw [hactive, hrun])
  obtain rfl : errand = .start := Option.some.inj (herrand'.symm.trans herrand)
  have hu : ⟨true, told ++ [.started 1 "b"]⟩ ∈
      (after workshop (earlier ++ .settle :: later)).slot.subscribers := by
    rw [hsubscribers]
    exact List.mem_singleton_self _
  rw [hrun] at hreceived hleaves
  refine ⟨hsubscribers, hreceived _ hu rfl "a" (by decide), t, hmem, hfailure, hactive, ?_, ?_, hleaves⟩
  · rw [hturn, hnext]
  · rw [hturn, hnext]

end Scratchpad.Run
