import Scratchpad.Config.Basic
import Scratchpad.Proofs.Run.Intake
import Scratchpad.Proofs.Run.Progress

/-!
# How stale output gets

While a process goes on, a timer sees to it that what has been collected is delivered in time. Once the output
has ended nobody looks at the timer any more: what is collected then stays collected until the end of the
process is known, and is lost if the run is stopped before.

## Main definitions

* `Fits.output_of_phase`, `Settled`: what a world that has settled holds of the output of the active run.
* `Parked`: a job that awaits the end of its process keeps what it has collected until it ends.

## Main statements

* `staleness_bounded`: while output flows, every collected entry was read less than an interval ago.
* `withheld_until_end`: what is collected when the output ends is withheld until the end of the process.
-/

namespace Scratchpad.Run

open Log Sandbox Supervision Slot

variable {workshop : Workshop} {printed : Nat → List String} {w : Supervision} {run p : Nat} {q : Process}
  {job : Job}

/-! ## Worlds that have settled -/

/-- **A run that has the slot and has nothing to go on for has read everything** that its process printed. It
reads on while the process goes on, and awaits the end of the process otherwise. -/
theorem Fits.output_of_phase {matchLines : Bool} {v : View} {isWoken : Prop} {stage : Stage}
    (h : Fits printed matchLines run v isWoken stage) (hquiet : ¬ isWoken) (hc : v.isCancelled = false)
    (hphase : v.phase.isSome) (hq : v.owns p = some q) :
    v.phase = some .running ∧ q.isAttended = true ∧ q.unread = [] ∧ ∃ reader batcher,
      (LineReader.start matchLines).feedAll (printed p) = (delivered v.told ++ batcher.queue, reader) ∧
      ((q.control = .alive ∧ ∃ nextFlush, stage = .reading p reader batcher nextFlush) ∨
        q.control ≠ .alive ∧ stage = .awaiting p reader batcher) := by
  have hunspawned : ¬ v.Unspawned := fun hv => by simp [hv.owns p] at hq
  cases stage with
  | fresh source => exact absurd h.1 hunspawned
  | writing part entry => exact absurd h.1 hunspawned
  | spawning => exact absurd h.1 hunspawned
  | reading p₀ reader batcher nextFlush =>
    obtain ⟨q₀, hq₀, hflow, hwait⟩ := h
    obtain ⟨rfl, rfl⟩ := hq₀.eq_of_owns hq
    obtain ⟨-, halive, hunread⟩ := hwait.resolve_left hquiet
    obtain ⟨hrunning, chunks, hprinted, hfed⟩ := hflow hc
    rw [hunread, List.append_nil] at hprinted
    rw [← hprinted] at hfed
    exact ⟨hrunning, hq₀.isAttended, hunread, reader, batcher, hfed, .inl ⟨halive, nextFlush, rfl⟩⟩
  | awaiting p₀ reader batcher =>
    obtain ⟨q₀, hq₀, hflow, hcontrol, hunread, -⟩ := h
    obtain ⟨rfl, rfl⟩ := hq₀.eq_of_owns hq
    obtain ⟨hrunning, chunks, hprinted, hfed⟩ := hflow hc
    rw [hunread, List.append_nil] at hprinted
    rw [← hprinted] at hfed
    exact ⟨hrunning, hq₀.isAttended, hunread, reader, batcher, hfed, .inr ⟨hcontrol, rfl⟩⟩
  | ended =>
    have hnone : v.phase = none := h.phase
    simp [hnone] at hphase

/-- What is held of the output of a run. Of the entries that have arrived the earlier ones have been delivered
and the recent ones are collected. These are fewer than the mark, and nothing was read an interval or more
after one of them. -/
structure Held (settings : Settings) (seen : List (Nat × String)) (job : Job) (reader : LineReader)
    (batcher : Batcher Entry) (earlier recent : List (Nat × Entry)) : Prop where
  arrivals_eq : (LineReader.start job.matchLines).arrivals seen = (earlier ++ recent, reader)
  map_recent : recent.map Prod.snd = batcher.queue
  length_queue : batcher.queue.length < max settings.mark 1
  close : ∀ x ∈ recent, ∀ read ∈ seen, read.1 < x.1 + settings.flushInterval

/-- What has been delivered is what has arrived, except for what is collected. -/
theorem Held.eq_map_earlier {settings : Settings} {seen : List (Nat × String)} {reader : LineReader}
    {batcher : Batcher Entry} {earlier recent : List (Nat × Entry)}
    (h : Held settings seen job reader batcher earlier recent) {told : List Entry}
    (hfed : (LineReader.start job.matchLines).feedAll (seen.map Prod.snd) = (told ++ batcher.queue, reader)) :
    told = earlier.map Prod.snd := by
  have hsaid := LineReader.map_snd_arrivals (.start job.matchLines) seen
  rw [h.arrivals_eq, hfed, List.map_append, h.map_recent, Prod.mk.injEq] at hsaid
  exact (List.append_cancel_right hsaid.1).symm

/-- **The output of the active run, once the world has settled.** -/
theorem exists_held (hpos : 0 < workshop.settings.flushInterval) {moments : List Moment}
    (hready : (lapse workshop moments).ready = [])
    (ha : (lapse workshop moments).slot.active = some run)
    (hq : (lapse workshop moments).sandbox.processes[p]? = some q) (howner : q.owner = run) :
    (lapse workshop moments).slot.phase = .running ∧
    (reads (journey workshop moments) p).map Prod.snd = printedAt workshop moments p ∧
    ∃ job reader batcher earlier recent moves,
      (lapse workshop moments).jobs[run]? = some job ∧
      Held workshop.settings (reads (journey workshop moments) p) job reader batcher earlier recent ∧
      (lapse workshop moments).slot = play moves ∧
      delivered (ofRun run (story moves)) = earlier.map Prod.snd ∧
      ((q.control = .alive ∧ ∃ nextFlush, job.stage = .reading p reader batcher nextFlush ∧
          ∀ x ∈ recent, (lapse workshop moments).now < x.1 + workshop.settings.flushInterval) ∨
        q.control ≠ .alive ∧ job.stage = .awaiting p reader batcher) := by
  obtain ⟨log, hworld, hfits⟩ := sound_lapse workshop moments
  have hrecorded := recorded_lapse hpos moments
  have hprompt := prompt_lapse hpos moments
  generalize lapse workshop moments = w at *
  obtain ⟨moves, hslot, rfl⟩ := hworld.slot
  obtain ⟨job, hjob⟩ : ∃ job, w.jobs[run]? = some job :=
    ⟨_, List.getElem?_eq_getElem (howner ▸ hworld.owners p q hq)⟩
  obtain ⟨hrunning, hattended, hunread, reader, batcher, hfed, hstage⟩ :=
    (hfits run job hjob).output_of_phase (by simp [hready]) (hworld.coherent.kept run ha)
      ((w.isSome_phase_view _ run).mpr ha) (owned_eq_some.mpr ⟨hq, howner⟩)
  have hread : (reads (journey workshop moments) p).map Prod.snd = printedAt workshop moments p := by
    have hcomplete := hrecorded.complete p fun q' hq' => by
      rwa [← Option.some.inj (hq.symm.trans hq')]
    rwa [Script.unread_of_getElem? hq, hunread, List.append_nil] at hcomplete
  have hphase : w.slot.phase = .running := by
    rw [Supervision.view] at hrunning
    dsimp only at hrunning
    rw [if_pos ha] at hrunning
    exact Option.some.inj hrunning
  rw [← hread] at hfed
  have hrecent := hrecorded.recent run job hjob
  refine ⟨hphase, hread, job, reader, batcher, ?_⟩
  rcases hstage with ⟨halive, nextFlush, hs⟩ | ⟨hcontrol, hs⟩
  · rw [hs] at hrecent
    obtain ⟨hmark, -, earlier, recent, harrived, hqueue, hclose⟩ := hrecent
    have hheld : Held workshop.settings (reads (journey workshop moments) p) job reader batcher earlier recent :=
      ⟨harrived, hqueue, hmark ▸ batcher.length_lt_mark, fun x hx => (hclose x hx).2⟩
    refine ⟨earlier, recent, moves, hjob, hheld, hslot, hheld.eq_map_earlier hfed,
      .inl ⟨halive, nextFlush, hs, ?_⟩⟩
    have hontime : w.now < nextFlush :=
      ((hprompt run job hjob).resolve_left (by simp [hready])) p reader batcher nextFlush hs
    intro x hx
    exact Nat.lt_of_lt_of_le hontime (hclose x hx).1
  · rw [hs] at hrecent
    obtain ⟨hmark, earlier, recent, harrived, hqueue, hclose⟩ := hrecent
    have hheld : Held workshop.settings (reads (journey workshop moments) p) job reader batcher earlier recent :=
      ⟨harrived, hqueue, hmark ▸ batcher.length_lt_mark, fun x hx => (hclose x hx).2⟩
    exact ⟨earlier, recent, moves, hjob, hheld, hslot, hheld.eq_map_earlier hfed, .inr ⟨hcontrol, hs⟩⟩

/-! ## Jobs that await the end of their processes -/

/-- A job that awaits the end of its process still does, with all that it has collected, or has ended. -/
def Parked (run : Nat) (job : Job) (w : Supervision) : Prop :=
  ∃ stage, w.jobs[run]? = some { job with stage := stage } ∧ (stage = job.stage ∨ stage = .ended)

namespace Parked

variable {reader : LineReader} {batcher : Batcher Entry} {w' : Supervision}

theorem of_jobs_eq (h : Parked run job w) (hjobs : w'.jobs = w.jobs) : Parked run job w' := by
  rwa [Parked, hjobs]

/-- A job that goes on from there ends, or has to wait on. -/
theorem resume (h : Parked run job w) (hs : job.stage = .awaiting p reader batcher) (r : Nat) :
    Parked run job (Supervision.resume workshop w r) := by
  obtain ⟨stage, hjob, hstage⟩ := h
  by_cases hr : run = r
  · subst hr
    have hended : ∀ w' : Supervision, w'.jobs = w.jobs → Parked run job (w'.atStage run .ended) := by
      intro w' hjobs
      exact ⟨.ended, by simp [atStage, hjobs, hjob], .inr rfl⟩
    have hstay : Parked run job w := ⟨stage, hjob, hstage⟩
    rw [Supervision.resume, hjob]
    rcases hstage with rfl | rfl
    · dsimp only
      rw [hs]
      dsimp only
      split
      · exact hended _ rfl
      · split
        · exact hstay
        · rw [close]
          dsimp only
          split <;> exact hended _ (by simp)
    · exact hstay
  · exact ⟨stage, ((Spares.resume w r).jobs_of_ne hr).trans hjob, hstage⟩

theorem settle (h : Parked run job w) (hs : job.stage = .awaiting p reader batcher) :
    Parked run job (Supervision.settle workshop w) :=
  List.foldlRecOn (motive := Parked run job) (b := { w with ready := [] }) w.ready
    (Supervision.resume workshop) h fun _ hw' r _ => hw'.resume hs r

/-- No timer is looked at while a job awaits the end of its process. -/
theorem elapse (h : Parked run job w) (hs : job.stage = .awaiting p reader batcher) (ms : Nat) :
    Parked run job (Supervision.elapse workshop w ms) := by
  refine elapse_induction (P := Parked run job) h ?_ fun w' now hw' => hw'
  rintro w' r ⟨stage, hjob, hstage⟩
  by_cases hr : run = r
  · subst hr
    rcases elapseJob_cases workshop w' run (w.now + ms) with heq | ⟨job', _, _, _, _, _, hjob', hs', -⟩
    · rw [heq]
      exact ⟨stage, hjob, hstage⟩
    · obtain rfl : { job with stage := stage } = job' := Option.some.inj (hjob.symm.trans hjob')
      rcases hstage with rfl | rfl
      · rw [hs] at hs'
        cases hs'
      · cases hs'
  · exact ⟨stage, ((Spares.elapseJob w' r _).jobs_of_ne hr).trans hjob, hstage⟩

theorem turn (h : Parked run job w) (hs : job.stage = .awaiting p reader batcher) (t : Turn) :
    Parked run job (Supervision.turn workshop w t) := by
  rcases t.kinds with ht | rfl | ⟨ms, rfl⟩ | ⟨source, text, matchLines, environment, rfl⟩
  · exact h.of_jobs_eq (quiet_turn workshop ht w).1
  · exact h.settle hs
  · exact (h.settle hs).elapse hs ms
  · obtain ⟨stage, hjob, hstage⟩ := h
    refine ⟨stage, ?_, hstage⟩
    have hlt : run < w.jobs.length := (List.getElem?_eq_some_iff.mp hjob).1
    simpa [Supervision.turn, perform, Supervision.start, List.getElem?_append_left hlt] using hjob

/-- **A job that awaits the end of its process keeps what it has collected**, whatever happens. -/
theorem after {turns : List Turn} (h : Parked run job (Supervision.after workshop turns))
    (hs : job.stage = .awaiting p reader batcher) (later : List Turn) :
    Parked run job (Supervision.after workshop (turns ++ later)) := by
  rw [Supervision.after, List.foldl_append]
  exact List.foldlRecOn (motive := Parked run job) later (Supervision.turn workshop) h
    fun _ hw' t _ => hw'.turn hs t

end Parked

/-- A process that has ended prints nothing any more. -/
theorem printed_of_ended {turns : List Turn} (hq : (after workshop turns).sandbox.processes[p]? = some q)
    (hended : q.control ≠ .alive) (later : List Turn) :
    (∃ q', (after workshop (turns ++ later)).sandbox.processes[p]? = some q' ∧ q'.owner = q.owner ∧
      q'.control = q.control) ∧
      Supervision.printed workshop (turns ++ later) p = Supervision.printed workshop turns p := by
  induction later using List.reverseRecOn with
  | nil => simpa using ⟨q, hq, rfl, rfl⟩
  | append_singleton later t ih =>
    obtain ⟨⟨q', hq', howner, hcontrol⟩, hprinted⟩ := ih
    have hsilent : prints p (Supervision.after workshop (turns ++ later)) t = [] := by
      have hnone : (Supervision.after workshop (turns ++ later)).sandbox.controlled? p = none := by
        rw [Script.controlled?, hq', Option.filter_some, if_neg (by simpa [hcontrol] using hended)]
      cases t with
      | settle => rfl
      | act action =>
        cases action with
        | emit p' chunk =>
          refine if_neg ?_
          rintro ⟨rfl, hsome⟩
          simp [hnone] at hsome
        | _ => rfl
    obtain ⟨q'', hq'', howner', hcontrol'⟩ : ∃ q'',
        (turn workshop (after workshop (turns ++ later)) t).sandbox.processes[p]? = some q'' ∧
          q''.owner = q'.owner ∧ q''.control = q'.control :=
      exists_ended_turn hq' (hcontrol ▸ hended) t
    rw [← List.append_assoc, printed_append_singleton, hsilent, List.append_nil, after_append_singleton]
    exact ⟨⟨q'', hq'', howner'.trans howner, hcontrol'.trans hcontrol⟩, hprinted⟩

/-- **What has been delivered does not change while a job awaits the end of its process**, as long as its run
has the slot. -/
theorem delivered_of_parked {turns later : List Turn} {reader : LineReader} {batcher : Batcher Entry}
    (hjob : (after workshop turns).jobs[run]? = some job) (hs : job.stage = .awaiting p reader batcher)
    (hq : (after workshop turns).sandbox.processes[p]? = some q) (hended : q.control ≠ .alive)
    (ha : (after workshop (turns ++ later)).slot.active = some run) :
    ∃ moves, (after workshop (turns ++ later)).slot = play moves ∧
      (LineReader.start job.matchLines).feedAll (Supervision.printed workshop turns p) =
        (delivered (ofRun run (story moves)) ++ batcher.queue, reader) := by
  obtain ⟨log, hworld, hfits⟩ := sound_after workshop (turns ++ later)
  obtain ⟨moves, hslot, rfl⟩ := hworld.slot
  have hparked : Parked run job (after workshop turns) := ⟨job.stage, hjob, .inl rfl⟩
  obtain ⟨stage, hjob', hstage⟩ := hparked.after hs later
  have hfit := hfits run _ hjob'
  rcases hstage with rfl | rfl
  · dsimp only at hfit
    rw [hs] at hfit
    obtain ⟨q', -, hflow, -, hunread, -⟩ := hfit
    obtain ⟨-, chunks, hprinted, hfed⟩ := hflow (hworld.coherent.kept run ha)
    rw [hunread, List.append_nil, (printed_of_ended hq hended later).2] at hprinted
    rw [hprinted]
    exact ⟨moves, hslot, hfed⟩
  · exact absurd ha (active_ne_of_ended hjob' rfl)

/-! ## What the output shows -/

/-- The output shows the last entries that have been delivered of the active run: those since it was cleared. -/
theorem isSuffix_output_of_active {moves : List Move} (ha : (play moves).active = some run) :
    (play moves).output <:+ delivered (ofRun run (story moves)) := by
  induction moves using List.reverseRecOn with
  | nil => exact List.nil_suffix
  | append_singleton moves m ih =>
    have hs := coherent_play moves
    rw [play_append_singleton] at ha ⊢
    rw [story_append_singleton, ofRun_append, delivered_append]
    cases m with
    | start source => exact List.nil_suffix
    | clear => exact List.nil_suffix
    | stop =>
      have hnone : ((play moves).move .stop).active = none := active_killActive _
      rw [hnone] at ha
      cases ha
    | subscribe | unsubscribe i =>
      simp only [told, ofRun, List.filter_nil, delivered_nil, List.append_nil]
      exact ih ha
    | deliver run' entries =>
      rw [hs.move_deliver] at ha ⊢
      rw [told]
      split at ha
      · rename_i hcond
        obtain rfl : run' = run := Option.some.inj (hcond.2.symm.trans ha)
        obtain ⟨cleared, hcleared⟩ := ih ha
        have hentries : delivered (ofRun run' [.output run' entries]) = entries := by
          simp [ofRun, Event.run, delivered, Event.items]
        rw [if_pos hcond, if_pos hcond, hentries, ← hcleared]
        exact ⟨cleared, (List.append_assoc ..).symm⟩
      · rename_i hcond
        simpa [hcond, ofRun] using ih ha
    | setRunning run' =>
      rw [hs.move_setRunning] at ha ⊢
      simp only [told, ofRun, List.filter_nil, delivered_nil, List.append_nil]
      split at ha
      · rename_i hcond
        rw [if_pos hcond]
        exact ih ha
      · rename_i hcond
        rw [if_neg hcond]
        exact ih ha
    | finish run' outcome =>
      rw [hs.move_finish] at ha ⊢
      split at ha
      · cases ha
      · rename_i hcond
        simpa [told, hcond, ofRun] using ih ha

/-! ## What has to wait, and for how long -/

/-- **Output is never stale while it flows.** Whatever the configuration, however chunks arrive and however late
jobs are, consider a world that has settled while the process of the active run goes on. Everything that the
process printed has been read by then, and the program runs. The entries that have arrived with it fall into two
parts. The earlier ones have been delivered to whoever listens and has heard the run start. The recent ones are
collected: they are fewer than the mark, and every one of them was read less than an interval ago. -/
theorem staleness_bounded (config : Config.Running) {workshop : Workshop}
    (hsettings : workshop.settings = config.settings) (moments : List Moment) {run p : Nat} {q : Process}
    (hready : (lapse workshop moments).ready = []) (ha : (lapse workshop moments).slot.active = some run)
    (hq : (lapse workshop moments).sandbox.processes[p]? = some q) (howner : q.owner = run)
    (halive : q.control = .alive) :
    let w := lapse workshop moments
    let seen := reads (journey workshop moments) p
    w.slot.phase = .running ∧ seen.map Prod.snd = printedAt workshop moments p ∧
    ∃ job reader batcher nextFlush earlier recent,
      w.jobs[run]? = some job ∧ job.stage = .reading p reader batcher nextFlush ∧
      (LineReader.start job.matchLines).arrivals seen = (earlier ++ recent, reader) ∧
      (∀ u ∈ w.slot.subscribers, u.isListening = true → ∀ source, .started run source ∈ u.received →
        delivered (ofRun run u.received) = earlier.map Prod.snd) ∧
      recent.map Prod.snd = batcher.queue ∧
      batcher.queue.length < max 1 config.mark.toNat ∧
      ∀ x ∈ recent, w.now < x.1 + max 1 config.flushInterval.toNat := by
  obtain ⟨hinterval, hmark⟩ : workshop.settings.flushInterval = max 1 config.flushInterval.toNat ∧
      workshop.settings.mark = config.mark.toNat := by
    rw [hsettings]
    exact ⟨rfl, rfl⟩
  have hpos : 0 < workshop.settings.flushInterval := by omega
  intro w seen
  obtain ⟨hphase, hread, job, reader, batcher, earlier, recent, moves, hjob, hheld, hslot, hdelivered,
    ⟨-, nextFlush, hs, hrecent⟩ | ⟨hcontrol, -⟩⟩ := exists_held hpos hready ha hq howner
  · refine ⟨hphase, hread, job, reader, batcher, nextFlush, earlier, recent, hjob, hs, hheld.arrivals_eq,
      ?_, hheld.map_recent, ?_, hinterval ▸ hrecent⟩
    · intro u hu hl source hsaw
      rw [ofRun_received (hslot ▸ hu) hl hsaw]
      exact hdelivered
    · rw [Nat.max_comm, ← hmark]
      exact hheld.length_queue
  · exact absurd halive hcontrol

/-- Output flows in three chunks. The first is read in time; when the second is read, the timer has gone off
three times and nobody has looked; and then the timer goes off sooner than it would. -/
theorem staleness_bounded_late :
    let config : Config.Running := { flushInterval := 50, mark := 3 }
    let workshop : Workshop := ⟨config.settings, fun source => .ok source⟩
    let moments : List Moment :=
      [.turn (.act (.start "a" "x" false .empty)), .turn .settle, .turn (.act (.emit 0 "one\ntw")),
        .turn .settle, .delay 170, .turn (.act (.emit 0 "o\nth")), .turn .settle, .hasten 0 200, .delay 20]
    let q : Process := ⟨0, [], .alive, false, true⟩
    (lapse workshop moments).ready = [] ∧ (lapse workshop moments).slot.active = some 0 ∧
      (lapse workshop moments).sandbox.processes[0]? = some q ∧ q.owner = 0 ∧ q.control = .alive ∧
      (lapse workshop moments).now = 190 ∧
      reads (journey workshop moments) 0 = [(0, "one\ntw"), (170, "o\nth")] ∧
      ∃ (job : Job) (reader : LineReader) (batcher : Batcher Entry) (earlier recent : List (Nat × Entry)),
        (lapse workshop moments).jobs[0]? = some job ∧
        (LineReader.start job.matchLines).arrivals [(0, "one\ntw"), (170, "o\nth")] =
          (earlier ++ recent, reader) ∧
        recent.map Prod.snd = batcher.queue ∧ batcher.queue.length < 3 ∧ ∀ x ∈ recent, 190 < x.1 + 50 := by
  intro config workshop moments q
  have hready : (lapse workshop moments).ready = [] := by decide +kernel
  have hactive : (lapse workshop moments).slot.active = some 0 := by decide +kernel
  have hq : (lapse workshop moments).sandbox.processes[0]? = some q := by decide +kernel
  have hnow : (lapse workshop moments).now = 190 := by decide +kernel
  have hreads : reads (journey workshop moments) 0 = [(0, "one\ntw"), (170, "o\nth")] := by decide +kernel
  obtain ⟨-, -, job, reader, batcher, -, earlier, recent, hjob, -, harrived, -, hqueue, hlength, hrecent⟩ :=
    staleness_bounded config rfl moments hready hactive hq rfl rfl
  have hmark : max 1 config.mark.toNat = 3 := by decide
  have hinterval : max 1 config.flushInterval.toNat = 50 := by decide
  rw [hreads] at harrived
  rw [hmark] at hlength
  rw [hnow, hinterval] at hrecent
  exact ⟨hready, hactive, hq, rfl, rfl, hnow, hreads, job, reader, batcher, earlier, recent, hjob, harrived,
    hqueue, hlength, hrecent⟩

/-- **What is collected when the output ends is withheld until the end of the process is known.** Consider a world
that has settled after the output of the active run's process has ended, while the end of the process is
awaited. Everything that it printed has been read. The recent entries are collected: they are fewer than the
mark, and nothing was read an interval or more after one of them. All others have been delivered.

The recent entries are not delivered as time goes by. However much later it is, as long as the run has the slot,
and also when it has been told to end at last, whoever listens and has heard the run start has received the
earlier entries and no recent one. While the run has the slot, the output shows no recent one either. -/
theorem withheld_until_end (config : Config.Running) {workshop : Workshop}
    (hsettings : workshop.settings = config.settings) (turns : List Turn) {run p : Nat} {q : Process}
    (hready : (after workshop turns).ready = []) (ha : (after workshop turns).slot.active = some run)
    (hq : (after workshop turns).sandbox.processes[p]? = some q) (howner : q.owner = run)
    (hended : q.control ≠ .alive) :
    let seen := reads (itinerary workshop turns) p
    seen.map Prod.snd = Supervision.printed workshop turns p ∧
    ∃ job reader batcher earlier recent,
      (after workshop turns).jobs[run]? = some job ∧ job.stage = .awaiting p reader batcher ∧
      (LineReader.start job.matchLines).arrivals seen = (earlier ++ recent, reader) ∧
      recent.map Prod.snd = batcher.queue ∧ batcher.queue.length < max 1 config.mark.toNat ∧
      (∀ x ∈ recent, ∀ read ∈ seen, read.1 < x.1 + max 1 config.flushInterval.toNat) ∧
      ∀ later : List Turn,
        (after workshop (turns ++ later)).slot.active = some run ∨
          (after workshop (turns ++ later)).slot.isCancelled run = true →
        (∀ u ∈ (after workshop (turns ++ later)).slot.subscribers, u.isListening = true →
          ∀ source, .started run source ∈ u.received →
            delivered (ofRun run u.received) = earlier.map Prod.snd) ∧
        ((after workshop (turns ++ later)).slot.active = some run →
          (after workshop (turns ++ later)).slot.output <:+ earlier.map Prod.snd) := by
  obtain ⟨hinterval, hmark⟩ : workshop.settings.flushInterval = max 1 config.flushInterval.toNat ∧
      workshop.settings.mark = config.mark.toNat := by
    rw [hsettings]
    exact ⟨rfl, rfl⟩
  have hpos : 0 < workshop.settings.flushInterval := by omega
  intro seen
  have hkept : (after workshop turns).slot.isCancelled run = false :=
    (coherent_after workshop turns).kept run ha
  rw [← lapse_map_turn] at hready ha hq
  obtain ⟨-, hread, job, reader, batcher, earlier, recent, -, hjob, hheld, -, -,
    ⟨halive, -⟩ | ⟨-, hs⟩⟩ := exists_held hpos hready ha hq howner
  · exact absurd halive hended
  rw [journey_map_turn, printedAt_map_turn] at hread
  rw [journey_map_turn] at hheld
  rw [lapse_map_turn] at hjob hq
  have hstays : ∀ later, (after workshop (turns ++ later)).slot.active = some run →
      ∃ moves, (after workshop (turns ++ later)).slot = play moves ∧
        delivered (ofRun run (story moves)) = earlier.map Prod.snd := by
    intro later hactive
    obtain ⟨moves, hslot, hfed⟩ := delivered_of_parked hjob hs hq hended hactive
    rw [← hread] at hfed
    exact ⟨moves, hslot, hheld.eq_map_earlier hfed⟩
  refine ⟨hread, job, reader, batcher, earlier, recent, hjob, hs, hheld.arrivals_eq, hheld.map_recent, ?_,
    hinterval ▸ hheld.close, ?_⟩
  · rw [Nat.max_comm, ← hmark]
    exact hheld.length_queue
  · intro later hlater
    constructor
    · intro u hu hl source hsaw
      rcases hlater with hactive | hc
      · obtain ⟨moves, hslot, hdelivered⟩ := hstays later hactive
        rw [ofRun_received (hslot ▸ hu) hl hsaw]
        exact hdelivered
      · -- told to end while it awaited the end of its process
        obtain ⟨before, kill, rest, rfl, hkill, hactive⟩ := exists_kill_since hkept hc
        obtain ⟨moves, hslot, hdelivered⟩ := hstays before hactive
        rw [← List.append_assoc] at hu
        rw [(received_of_killed rest hkill hactive hslot).2 u hu hl source hsaw]
        exact hdelivered
    · intro hactive
      obtain ⟨moves, hslot, hdelivered⟩ := hstays later hactive
      rw [hslot, ← hdelivered]
      exact isSuffix_output_of_active (hslot ▸ hactive)

/-- Two lines make a batch and a third one is collected when the output ends. A second later it has not been
delivered, and then the run is stopped. -/
theorem withheld_until_end_stopped :
    let config : Config.Running := { flushInterval := 50, mark := 2 }
    let workshop : Workshop := ⟨config.settings, fun source => .ok source⟩
    let turns : List Turn :=
      [.act (.hold .wait), .act (.start "a" "x" false .empty), .settle, .act (.emit 0 "one\ntwo\n"), .settle,
        .act (.emit 0 "three\n"), .act (.exit 0 0), .settle]
    let later : List Turn := [.act (.advance 1000)]
    let stopped : List Turn := later ++ [.act .stop, .settle]
    let q : Process := ⟨0, [], .exited 0, false, true⟩
    (after workshop turns).ready = [] ∧ (after workshop turns).slot.active = some 0 ∧
      (after workshop turns).sandbox.processes[0]? = some q ∧ q.owner = 0 ∧ q.control ≠ .alive ∧
      reads (itinerary workshop turns) 0 = [(0, "one\ntwo\n"), (0, "three\n")] ∧
      (after workshop (turns ++ later)).slot.active = some 0 ∧
      (after workshop (turns ++ stopped)).slot.isCancelled 0 = true ∧
      ∃ (job : Job) (reader : LineReader) (batcher : Batcher Entry) (earlier recent : List (Nat × Entry)),
        (after workshop turns).jobs[0]? = some job ∧ job.stage = .awaiting 0 reader batcher ∧
        (LineReader.start job.matchLines).arrivals [(0, "one\ntwo\n"), (0, "three\n")] =
          (earlier ++ recent, reader) ∧
        recent.map Prod.snd = batcher.queue ∧
        (after workshop (turns ++ later)).slot.output <:+ earlier.map Prod.snd ∧
        ∀ u ∈ (after workshop (turns ++ stopped)).slot.subscribers, u.isListening = true →
          ∀ source, .started 0 source ∈ u.received →
            delivered (ofRun 0 u.received) = earlier.map Prod.snd := by
  intro config workshop turns later stopped q
  have hready : (after workshop turns).ready = [] := by decide +kernel
  have hactive : (after workshop turns).slot.active = some 0 := by decide +kernel
  have hq : (after workshop turns).sandbox.processes[0]? = some q := by decide +kernel
  have hended : q.control ≠ .alive := by decide
  have hreads : reads (itinerary workshop turns) 0 = [(0, "one\ntwo\n"), (0, "three\n")] := by
    decide +kernel
  have hlater : (after workshop (turns ++ later)).slot.active = some 0 := by decide +kernel
  have hstopped : (after workshop (turns ++ stopped)).slot.isCancelled 0 = true := by decide +kernel
  obtain ⟨-, job, reader, batcher, earlier, recent, hjob, hs, harrived, hqueue, -, -, hwithheld⟩ :=
    withheld_until_end config rfl turns hready hactive hq rfl hended
  rw [hreads] at harrived
  exact ⟨hready, hactive, hq, rfl, hended, hreads, hlater, hstopped, job, reader, batcher, earlier, recent, hjob,
    hs, harrived, hqueue, (hwithheld later (.inl hlater)).2 hlater, (hwithheld stopped (.inr hstopped)).1⟩

/-- **A line may be withheld for longer than an interval.** It has been read and ended, a second has gone by since,
and neither the output nor a subscriber has it. -/
theorem line_is_withheld :
    ¬ ∀ (workshop : Workshop) (turns : List Turn) (run p : Nat) (req : Request) (q : Process),
      0 < workshop.settings.flushInterval → (requests turns)[run]? = some req →
      (after workshop turns).ready = [] → (after workshop turns).slot.active = some run →
      (after workshop turns).sandbox.processes[p]? = some q → q.owner = run → q.control ≠ .alive →
      (∀ read ∈ reads (itinerary workshop turns) p,
        read.1 + workshop.settings.flushInterval ≤ (after workshop turns).now) →
      (after workshop turns).slot.output =
          LineReader.entriesSoFar req.matchLines (String.join (Supervision.printed workshop turns p)) ∧
        ∀ u ∈ (after workshop turns).slot.subscribers, u.isListening = true →
          delivered (ofRun run u.received) =
            LineReader.entriesSoFar req.matchLines (String.join (Supervision.printed workshop turns p)) := by
  intro hall
  have houtput := (hall ⟨⟨50, 256, "node", "main.mjs"⟩, fun source => .ok source⟩
    [.act (.hold .wait), .act (.start "a" "x" false .empty), .settle, .act (.emit 0 "one\n"),
      .act (.exit 0 0), .act (.advance 1000)] 0 0 ⟨"a", "x", false, .empty⟩ ⟨0, [], .exited 0, false, true⟩
    (by decide) rfl (by decide +kernel) (by decide +kernel) (by decide +kernel) rfl (by decide)
    (by decide +kernel)).1
  revert houtput
  decide +kernel

end Scratchpad.Run
