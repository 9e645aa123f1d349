import Scratchpad.Proofs.Run.Reports

/-!
# The account of the slot

What the slot knows of its past is right after any honest moves, and every slot that a history comes to is
one that honest moves lead to: at the end of the history, and also at every stride on the way. Whether the
program of the active run really runs is known to the sandbox alone: there a process of that run is found
whenever the slot says that its program runs.

## Main definitions

* `Supervision.HasProgram`: the active run owns a process.

## Main statements

* `Fits.exists_owns_of_phase`: a run that has the slot and whose program runs owns a process.
* `Underway.hasProgram`, `hasProgram_after`: the slot says that a program runs only if it has been started.
* `slot_keeps_account`: all that the slot knows of its past.
-/

namespace Scratchpad.Run

open Log Sandbox Supervision Slot

/-- The active run owns a process. -/
def Supervision.HasProgram (w : Supervision) : Prop :=
  ∃ (p : Nat) (q : Process), w.sandbox.processes[p]? = some q ∧ w.slot.active = some q.owner

section Program

variable {printed : Nat → List String} {matchLines : Bool} {run : Nat} {v : View} {isWoken : Prop}
  {stage : Stage} {w : Supervision} {log : List (Event Nat Entry)}

/-- On the way to a process the program does not run yet. -/
theorem View.Unspawned.phase_ne (hv : v.Unspawned) (hc : v.isCancelled = false) :
    v.phase ≠ some .running := by
  rw [(hv.silent hc).1]
  exact nofun

/-- **A run that has the slot and whose program runs owns a process.** -/
theorem Fits.exists_owns_of_phase (h : Fits printed matchLines run v isWoken stage)
    (hc : v.isCancelled = false) (hphase : v.phase = some .running) : ∃ p q, v.owns p = some q := by
  cases stage with
  | fresh source => exact absurd hphase (h.1.phase_ne hc)
  | writing part entry => exact absurd hphase (h.1.phase_ne hc)
  | spawning => exact absurd hphase (h.1.phase_ne hc)
  | reading p reader batcher nextFlush =>
    obtain ⟨q, hq, -, -⟩ := h
    exact ⟨p, q, hq.owns⟩
  | awaiting p reader batcher =>
    obtain ⟨q, hq, -, -⟩ := h
    exact ⟨p, q, hq.owns⟩
  | ended =>
    have hnone : v.phase = none := h.phase
    simp [hphase] at hnone

/-- On its way, too. -/
theorem OnLeg.exists_owns_of_phase {leg : Leg} (h : OnLeg printed matchLines run v isWoken stage leg)
    (hc : v.isCancelled = false) (hphase : v.phase = some .running) : ∃ p q, v.owns p = some q := by
  cases leg with
  | begin source => exact absurd hphase (View.Unspawned.phase_ne h hc)
  | reach part entry => exact absurd hphase (View.Unspawned.phase_ne h hc)
  | write part entry => exact absurd hphase (View.Unspawned.phase_ne h hc)
  | reachSpawn => exact absurd hphase (View.Unspawned.phase_ne h hc)
  | spawn => exact absurd hphase (View.Unspawned.phase_ne h hc)
  | read p reader batcher nextFlush =>
    obtain ⟨q, hq, -⟩ := h
    exact ⟨p, q, hq.owns⟩
  | awaitExit p reader batcher =>
    obtain ⟨q, hq, -⟩ := h
    exact ⟨p, q, hq.owns⟩
  | close p reader batcher =>
    obtain ⟨q, hq, -⟩ := h
    exact ⟨p, q, hq.owns⟩
  | rest => exact Fits.exists_owns_of_phase h hc hphase

/-- The view of the active run when its program runs. -/
theorem World.exists_view_of_phase (h : World printed log w) (hrunning : w.slot.phase = .running) :
    ∃ run, w.slot.active = some run ∧ run < w.jobs.length ∧ (w.view log run).isCancelled = false ∧
      (w.view log run).phase = some .running := by
  have ha : ∃ run, w.slot.active = some run := by
    obtain ⟨moves, hslot, -⟩ := h.slot
    rw [hslot, play_eq_reached] at hrunning ⊢
    obtain ⟨run, -, -, ha, -⟩ := exists_setRunning hrunning
    exact ⟨run, ha⟩
  obtain ⟨run, ha⟩ := ha
  have hlatest := h.coherent.latest run ha
  refine ⟨run, ha, ?_, h.coherent.kept run ha, ?_⟩
  · rw [h.length_jobs]
    omega
  · rw [Supervision.view, if_pos ha, hrunning]

theorem hasProgram_of_owns (ha : w.slot.active = some run)
    (howns : ∃ p q, (w.view log run).owns p = some q) : w.HasProgram := by
  obtain ⟨p, q, hq⟩ := howns
  obtain ⟨hp, rfl⟩ := owned_eq_some.mp hq
  exact ⟨p, q, hp, ha⟩

/-- When all is well, the slot says that a program runs only if it has been started. -/
theorem Sound.hasProgram {woken : List Nat} (h : Sound printed woken w)
    (hrunning : w.slot.phase = .running) : w.HasProgram := by
  obtain ⟨log, hworld, hfits⟩ := h
  obtain ⟨run, ha, hlt, hc, hphase⟩ := hworld.exists_view_of_phase hrunning
  have hfit := hfits run _ (List.getElem?_eq_getElem hlt)
  exact hasProgram_of_owns ha (hfit.exists_owns_of_phase hc hphase)

/-- **The slot says that a program runs only if it has been started**, also while a run is on its way. -/
theorem Underway.hasProgram {woken : List Nat} {job : Job} {leg : Leg}
    (h : Underway printed woken run job (leg, w)) (hrunning : w.slot.phase = .running) :
    w.HasProgram := by
  obtain ⟨v, stage, ⟨log, helse, hjob, rfl⟩, hleg⟩ := h
  obtain ⟨active, ha, hlt, hc, hphase⟩ := helse.world.exists_view_of_phase hrunning
  apply hasProgram_of_owns ha
  by_cases hactive : active = run
  · rw [hactive] at hc hphase ⊢
    exact OnLeg.exists_owns_of_phase hleg hc hphase
  · -- another run has the slot
    have hfit := helse.fits active _ hactive (List.getElem?_eq_getElem hlt)
    exact hfit.exists_owns_of_phase hc hphase

end Program

/-- At every stride of a history the slot is one that honest moves lead to. -/
theorem exists_honest_moves_stride {workshop : Workshop} {turns : List Turn} {t : Stride}
    (ht : t ∈ itinerary workshop turns) :
    ∃ moves : List Move, (∀ m ∈ moves, m.IsHonest) ∧ t.world.slot = reached moves := by
  obtain ⟨earlier, later, before, after, -, -, ht'⟩ := exists_of_mem_itinerary ht
  have hreported : Reported (Supervision.after workshop earlier) t.world :=
    (Reported.foldl_resume (Supervision.after workshop earlier) before).trans (.stride ht')
  obtain ⟨reports, hreports, hslot, -⟩ := hreported.reports (generations_after workshop earlier)
  obtain ⟨moves, honest, -, hslot'⟩ := exists_honest_moves workshop earlier
  refine ⟨moves ++ reports, List.forall_mem_append.mpr ⟨honest, fun m hm => (hreports m hm).2⟩, ?_⟩
  rw [hslot, hslot', reached, reached, List.foldl_append]

/-- **The slot keeps account of its past**, whatever its owner and the runs do to it in whatever order, as
long as no run reports of itself to have been killed. Nothing goes on if and only if nobody has the slot.
Whoever has it was started last and has not been told to end, and has the generation of the slot, which
nobody had before. The generation counts the starts and the kills, so no two runs have the same. A run has
been told to end if and only if it has been told of it that it was killed. There is no last outcome if and
only if there is an active run or none was ever started. A program runs only if the active run has said so.

The slot of any history is one that such moves lead to, and they start what is asked for. So is the slot at
every stride, when a run is on its way. A program runs only if it is that of the active run. -/
theorem slot_keeps_account :
    (∀ moves : List Move, (∀ m ∈ moves, m.IsHonest) →
      ((reached moves).phase = .idle ↔ (reached moves).active = none) ∧
      (∀ run, (reached moves).active = some run →
        run + 1 = (moves.filterMap Move.source?).length ∧ (reached moves).isCancelled run = false ∧
        ∃ handle, (reached moves).handles[run]? = some handle ∧
          handle.generation = (reached moves).generation ∧
          ∀ earlier < run, ∀ handle', (reached moves).handles[earlier]? = some handle' →
            handle'.generation < handle.generation) ∧
      (reached moves).generation =
        (moves.filterMap Move.source?).length + (chronicle moves).countP Event.isKill ∧
      ((reached moves).handles.map (·.generation)).Nodup ∧
      (∀ run, (reached moves).isCancelled run = true ↔ .finished run .killed ∈ chronicle moves) ∧
      ((reached moves).lastOutcome = none ↔
        (reached moves).active ≠ none ∨ moves.filterMap Move.source? = []) ∧
      ((reached moves).phase = .running → ∃ run before after,
        (reached moves).active = some run ∧ moves = before ++ .setRunning run :: after ∧
          (reached before).active = some run)) ∧
    ∀ (workshop : Workshop) (turns : List Turn),
      (∃ moves : List Move, (∀ m ∈ moves, m.IsHonest) ∧
        moves.filterMap Move.source? = (requests turns).map Request.source ∧
        (after workshop turns).slot = reached moves) ∧
      ((after workshop turns).slot.phase = .running → (after workshop turns).HasProgram) ∧
      ∀ t ∈ itinerary workshop turns,
        (∃ moves : List Move, (∀ m ∈ moves, m.IsHonest) ∧ t.world.slot = reached moves) ∧
        (t.world.slot.phase = .running → t.world.HasProgram) := by
  constructor
  · intro moves honest
    have hs := coherent_reached moves
    have hknows := remembers_reached honest
    refine ⟨hknows.idle_iff, ?_, hknows.generation_eq, hs.increasing.imp fun h => Nat.ne_of_lt h,
      hknows.cancelled_iff, ?_, exists_setRunning⟩
    · intro run ha
      obtain ⟨handle, hhandle⟩ := Remembers.exists_handle hs ha
      refine ⟨by rw [hs.latest run ha, hknows.length_handles], hs.kept run ha, handle, hhandle,
        hknows.own run handle ha hhandle, ?_⟩
      intro earlier hearlier handle' hhandle'
      obtain ⟨hlt, rfl⟩ := List.getElem?_eq_some_iff.mp hhandle
      obtain ⟨hlt', rfl⟩ := List.getElem?_eq_some_iff.mp hhandle'
      have hincreasing := List.pairwise_iff_getElem.mp hs.increasing earlier run
        (by simpa using hlt') (by simpa using hlt) hearlier
      simpa using hincreasing
    · rw [hknows.lastOutcome_iff, List.length_eq_zero_iff]
  · intro workshop turns
    refine ⟨exists_honest_moves workshop turns, (sound_after workshop turns).hasProgram, ?_⟩
    intro t ht
    obtain ⟨printed, woken, hunderway⟩ := underway_of_mem_itinerary ht
    exact ⟨exists_honest_moves_stride ht, hunderway.hasProgram⟩

/-- A run is superseded while its program runs and reports its end in vain, the next one is stopped, and a
third one has just been started. In a history, a run has the slot and its program runs. -/
theorem slot_keeps_account_superseded :
    let moves : List Move :=
      [.subscribe, .start "a", .setRunning 0, .start "b", .finish 0 (.completed 0), .stop, .setRunning 1,
        .start "c"]
    let workshop : Workshop := ⟨⟨50, 2, "node", "main.mjs"⟩, fun source => .ok source⟩
    let turns : List Turn := [.act (.start "a" "x" false .empty), .settle]
    (∀ m ∈ moves, m.IsHonest) ∧
      (reached moves).handles = [⟨1, true⟩, ⟨3, true⟩, ⟨5, false⟩] ∧ (reached moves).active = some 2 ∧
      (reached moves).generation = 3 + (chronicle moves).countP Event.isKill ∧
      ((reached moves).handles.map (·.generation)).Nodup ∧
      (.finished 0 .killed ∈ chronicle moves ∧ .finished 1 .killed ∈ chronicle moves) ∧
      (reached moves).lastOutcome = none ∧ (after workshop turns).slot.phase = .running ∧
      (after workshop turns).HasProgram := by
  intro moves workshop turns
  have honest : ∀ m ∈ moves, m.IsHonest := by simp [moves, Move.IsHonest]
  have hactive : (reached moves).active = some 2 := by decide
  obtain ⟨-, -, hgeneration, hnodup, hcancelled, houtcome, -⟩ := slot_keeps_account.1 moves honest
  have hrunning : (after workshop turns).slot.phase = .running := by decide +kernel
  refine ⟨honest, by decide, hactive, hgeneration, hnodup, ⟨?_, ?_⟩, ?_, hrunning, ?_⟩
  · exact (hcancelled 0).mp (by decide)
  · exact (hcancelled 1).mp (by decide)
  · exact houtcome.mpr (.inl (by simp [hactive]))
  · exact (slot_keeps_account.2 workshop turns).2.1 hrunning

end Scratchpad.Run
