import Scratchpad.Proofs.Log.Arrival
import Scratchpad.Proofs.Run.Conservation
import Scratchpad.Proofs.Run.Lateness
import Scratchpad.Proofs.Run.Work
import Scratchpad.Proofs.Sandbox.Unread

/-!
# What jobs read, and when

A job reads on one kind of leg only, and then takes everything that is unread of its process. So the journey of
a history tells what has been read of every process, chunk by chunk, and at which time. What a process has
printed has been read or is unread, as long as its run cares for it, and whatever a job has collected was read
lately.

## Main definitions

* `Stride.intake`, `reads`: what is read at a stride and on a journey, each chunk with the time.
* `Leg.HoldsRecent`: what is collected on a leg was read lately.
* `Recorded`: the journey accounts for what every process has printed and every job has collected.

## Main statements

* `intake_go`: what is taken on a leg is no longer unread.
* `Underway.ne_of_intake?`: no two jobs read the same process.
* `Records.go`, `Recorded.turn`: every leg and every turn keeps the account.
* `recorded_lapse`: the journey of any moments accounts for all of it.
-/

namespace Scratchpad.Run

open Log Sandbox Supervision

/-- The chunks that are read from a process at a stride, each with the time. -/
def Stride.intake (p : Nat) (t : Stride) : List (Nat × String) :=
  match t.leg with
  | .read p' _ _ _ =>
    if p' = p ∧ t.world.slot.isCancelled t.run = false then
      (t.world.sandbox.unread p).map (t.world.now, ·)
    else []
  | _ => []

/-- The chunks that are read from a process on a journey, each with the time. -/
def reads (strides : List Stride) (p : Nat) : List (Nat × String) := strides.flatMap (Stride.intake p)

@[simp] theorem reads_nil (p : Nat) : reads [] p = [] := rfl

@[simp] theorem reads_append (strides more : List Stride) (p : Nat) :
    reads (strides ++ more) p = reads strides p ++ reads more p := List.flatMap_append

@[simp] theorem reads_singleton (t : Stride) (p : Nat) : reads [t] p = t.intake p := List.flatMap_singleton ..

variable {workshop : Workshop} {printed : Nat → List String} {woken : List Nat} {w : Supervision}
  {run : Nat} {job : Job} {log : List Stride}

/-! ## What is taken on a leg -/

/-- Nothing is taken from a process on a leg that does not read it. -/
theorem intake_eq_nil {t : Stride} {p : Nat}
    (h : ∀ reader batcher nextFlush, t.leg ≠ .read p reader batcher nextFlush) : t.intake p = [] := by
  rw [Stride.intake]
  split
  · rename_i p' reader batcher nextFlush hleg
    refine if_neg ?_
    rintro ⟨rfl, -⟩
    exact h reader batcher nextFlush hleg
  · rfl

/-- What is read at a stride is read at the time of the stride. -/
theorem fst_of_mem_intake {t : Stride} {p : Nat} {read : Nat × String} (h : read ∈ t.intake p) :
    read.1 = t.world.now := by
  rw [Stride.intake] at h
  split at h
  · split at h
    · obtain ⟨chunk, -, rfl⟩ := List.mem_map.mp h
      rfl
    · cases h
  · cases h

/-- **What is taken on a leg is no longer unread**, and nobody begins to care for a process again. -/
theorem intake_go (w : Supervision) (leg : Leg) (p : Nat) :
    ((go workshop run job w leg).2.sandbox.Heeds p → w.sandbox.Heeds p) ∧
      (Stride.intake p ⟨run, job, leg, w⟩).map Prod.snd ++ (go workshop run job w leg).2.sandbox.unread p =
        w.sandbox.unread p := by
  by_cases hleg : ∀ reader batcher nextFlush, leg ≠ .read p reader batcher nextFlush
  · -- not read on this leg
    have hleaves : Script.LeavesUnread p w.sandbox (go workshop run job w leg).2.sandbox := by
      refine .of_worksBy (worksBy_go w leg) fun hmakes => ?_
      obtain ⟨reader, batcher, nextFlush, heq⟩ := hmakes.makes p rfl
      exact hleg reader batcher nextFlush heq
    rw [intake_eq_nil (t := ⟨run, job, leg, w⟩) hleg]
    exact ⟨hleaves.heeds, hleaves.unread_eq⟩
  · simp only [ne_eq, not_forall, not_not] at hleg
    obtain ⟨reader, batcher, nextFlush, rfl⟩ := hleg
    cases hc : w.slot.isCancelled run with
    | true =>
      have hleaves : Script.LeavesUnread p w.sandbox (w.abandon run p).sandbox :=
        .of_worksBy (worksBy_abandon w p) fun hmodest => hmodest.1 p rfl
      rw [go, if_pos hc]
      exact ⟨hleaves.heeds, by simpa [Stride.intake, hc] using hleaves.unread_eq⟩
    | false =>
      obtain ⟨hunread, hheeds⟩ := w.sandbox.unread_markRead p
      have hsandbox : (go workshop run job w (.read p reader batcher nextFlush)).2.sandbox =
          w.sandbox.markRead p := by
        rw [go, if_neg (by simp [hc])]
        dsimp only
        split <;> simp [atStage]
      rw [hsandbox, hunread]
      exact ⟨hheeds, by simp [Stride.intake, hc, Function.comp_def]⟩

/-! ## What is collected was read lately -/

/-- The leg on which a job at a stage takes up its output again. -/
def Stage.toLeg : Stage → Leg
  | .reading p reader batcher nextFlush => .read p reader batcher nextFlush
  | .awaiting p reader batcher => .close p reader batcher
  | _ => .rest

/-- What is collected on a leg was read lately. While a process goes on, it waits for a timer that goes off in
an interval at most. -/
def Leg.HoldsRecent (settings : Settings) (matchLines : Bool) (reads : Nat → List (Nat × String))
    (now : Nat) : Leg → Prop
  | .read p reader batcher nextFlush =>
    batcher.mark = max settings.mark 1 ∧ nextFlush ≤ now + settings.flushInterval ∧
      Collected settings.flushInterval nextFlush matchLines (reads p) reader batcher
  | .awaitExit p reader batcher | .close p reader batcher =>
    batcher.mark = max settings.mark 1 ∧
      Collected settings.flushInterval 0 matchLines (reads p) reader batcher
  | _ => True

/-- What has been collected stays recent as long as nothing more is read, whatever time it is. -/
theorem Leg.HoldsRecent.later {settings : Settings} {matchLines : Bool}
    {reads reads' : Nat → List (Nat × String)} {now now' : Nat} {stage : Stage}
    (h : stage.toLeg.HoldsRecent settings matchLines reads now) (hle : now ≤ now')
    (hreads : ∀ p reader batcher, stage.intake? = some (p, reader, batcher) → reads' p = reads p) :
    stage.toLeg.HoldsRecent settings matchLines reads' now' := by
  cases stage with
  | reading p reader batcher nextFlush =>
    obtain ⟨hmark, hnext, hcollected⟩ := h
    refine ⟨hmark, by omega, ?_⟩
    rw [hreads p reader batcher rfl]
    exact hcollected
  | awaiting p reader batcher =>
    obtain ⟨hmark, hcollected⟩ := h
    refine ⟨hmark, ?_⟩
    rw [hreads p reader batcher rfl]
    exact hcollected
  | _ => trivial

section Read

variable {settings : Settings} {matchLines : Bool} {read : List (Nat × String)} {reader : LineReader}
  {batcher : Batcher Entry} {deadline : Nat}

/-- **Chunks that are read before the deadline** keep what is collected recent. -/
theorem Collected.readChunks
    (h : Collected settings.flushInterval deadline matchLines read reader batcher)
    (hlt : w.now < deadline) (hle : deadline ≤ w.now + settings.flushInterval)
    (hpast : ∀ r ∈ read, r.1 ≤ w.now) (run : Nat) (job : Job) (chunks : List String) :
    (w.readChunks run job reader batcher chunks).2.2.mark = batcher.mark ∧
      Collected settings.flushInterval deadline matchLines (read ++ chunks.map (w.now, ·))
        (w.readChunks run job reader batcher chunks).2.1
        (w.readChunks run job reader batcher chunks).2.2 := by
  induction chunks generalizing w read reader batcher with
  | nil => exact ⟨rfl, by simpa [Supervision.readChunks] using h⟩
  | cons chunk chunks ih =>
    have hnow : (w.deliverBatch run job (batcher.push (reader.feed chunk).1).1).now = w.now :=
      (Spares.deliverBatch w _).now
    have hpast' : ∀ r ∈ read ++ [(w.now, chunk)], r.1 ≤ w.now := by
      rw [List.forall_mem_append, List.forall_mem_singleton]
      exact ⟨hpast, Nat.le_refl _⟩
    have hrest := ih (w := w.deliverBatch run job (batcher.push (reader.feed chunk).1).1)
      (h.push hlt hle hpast chunk) (by rwa [hnow]) (by rwa [hnow]) (by rwa [hnow])
    rw [hnow, List.append_assoc, Batcher.mark_push] at hrest
    exact hrest

/-- **What is due is delivered first**, and then the deadline has not come. -/
theorem Collected.flushDue (hpos : 0 < workshop.settings.flushInterval)
    (h : Collected workshop.settings.flushInterval deadline matchLines read reader batcher)
    (hle : deadline ≤ w.now + workshop.settings.flushInterval) (run : Nat) (job : Job) :
    (Supervision.flushDue workshop w run job batcher deadline).2.1.mark = batcher.mark ∧
      w.now < (Supervision.flushDue workshop w run job batcher deadline).2.2 ∧
      (Supervision.flushDue workshop w run job batcher deadline).2.2 ≤
        w.now + workshop.settings.flushInterval ∧
      Collected workshop.settings.flushInterval
        (Supervision.flushDue workshop w run job batcher deadline).2.2 matchLines read reader
        (Supervision.flushDue workshop w run job batcher deadline).2.1 := by
  have hlt : w.now < (Supervision.flushDue workshop w run job batcher deadline).2.2 :=
    lt_flushDue hpos w batcher deadline
  by_cases hdue : deadline ≤ w.now
  · have heq : Supervision.flushDue workshop w run job batcher deadline =
        (w.deliverBatch run job batcher.tick.1, batcher.tick.2,
          w.now + workshop.settings.flushInterval) := if_pos hdue
    rw [heq] at hlt ⊢
    exact ⟨batcher.mark_tick, hlt, Nat.le_refl _, h.tick _⟩
  · have heq : Supervision.flushDue workshop w run job batcher deadline = (w, batcher, deadline) :=
      if_neg hdue
    rw [heq] at hlt ⊢
    exact ⟨rfl, hlt, hle, h⟩

end Read

/-! ## A job on its way -/

/-- What a job has collected was read lately, on the leg that it is on or at the stage at which it rests. -/
def HoldsOn (settings : Settings) (run : Nat) (job : Job) (reads : Nat → List (Nat × String)) :
    Leg × Supervision → Prop
  | (.rest, w) => ∀ stage, w.jobs[run]? = some { job with stage := stage } →
      stage.toLeg.HoldsRecent settings job.matchLines reads w.now
  | (leg, w) => leg.HoldsRecent settings job.matchLines reads w.now

theorem HoldsOn.of_atStage {settings : Settings} {reads : Nat → List (Nat × String)} {stage : Stage}
    (h : stage.toLeg.HoldsRecent settings job.matchLines reads w.now) :
    HoldsOn settings run job reads (.rest, w.atStage run stage) := by
  intro stage' hjob
  have hstage : stage' = stage := stage_of_atStage hjob
  rw [hstage]
  exact h

/-- A run that is over has collected nothing. -/
theorem HoldsOn.of_ended (settings : Settings) (reads : Nat → List (Nat × String)) (w : Supervision) :
    HoldsOn settings run job reads (.rest, w.atStage run .ended) := of_atStage trivial

/-- A job that reads delivers what is due, reads before the next deadline, and rests or goes on. -/
theorem HoldsOn.read (hpos : 0 < workshop.settings.flushInterval) {p : Nat} {reader : LineReader}
    {batcher : Batcher Entry} {nextFlush : Nat}
    (h : HoldsOn workshop.settings run job (reads log) (.read p reader batcher nextFlush, w))
    (hpast : ∀ read ∈ reads log p, read.1 ≤ w.now) :
    HoldsOn workshop.settings run job (reads (log ++ [⟨run, job, .read p reader batcher nextFlush, w⟩]))
      (go workshop run job w (.read p reader batcher nextFlush)) := by
  obtain ⟨hmark, hnext, hcollected⟩ := h
  rw [go]
  split
  · exact .of_ended _ _ _
  · rename_i hc
    have hintake : reads (log ++ [⟨run, job, .read p reader batcher nextFlush, w⟩]) p =
        reads log p ++ (w.sandbox.unread p).map (w.now, ·) := by
      simp [Stride.intake, hc]
    obtain ⟨hmark₁, hlt₁, hle₁, hcollected₁⟩ := Collected.flushDue hpos hcollected hnext run job
    have hnow₁ : (flushDue workshop w run job batcher nextFlush).1.now = w.now :=
      (Spares.flushDue w batcher nextFlush).now
    have hunread : (flushDue workshop w run job batcher nextFlush).1.sandbox.unread p =
        w.sandbox.unread p := by rw [sandbox_flushDue]
    generalize flushDue workshop w run job batcher nextFlush = due at hmark₁ hlt₁ hle₁ hcollected₁ hnow₁ hunread ⊢
    obtain ⟨w₁, batcher₁, nextFlush₁⟩ := due
    dsimp only at hmark₁ hlt₁ hle₁ hcollected₁ hnow₁ hunread ⊢
    set w₁' : Supervision := { w₁ with sandbox := w₁.sandbox.markRead p }
    obtain ⟨hmark₂, hcollected₂⟩ := Collected.readChunks (w := w₁') hcollected₁ (hnow₁ ▸ hlt₁)
      (hnow₁ ▸ hle₁) (hnow₁ ▸ hpast) run job (w.sandbox.unread p)
    have hnow₂ : (w₁'.readChunks run job reader batcher₁ (w.sandbox.unread p)).1.now = w₁'.now :=
      (Spares.readChunks w₁' reader batcher₁ (w.sandbox.unread p)).now
    have hnow₁' : w₁'.now = w.now := hnow₁
    rw [hnow₁'] at hcollected₂ hnow₂
    rw [← hintake] at hcollected₂
    rw [Script.unread] at hunread
    rw [hunread]
    generalize w₁'.readChunks run job reader batcher₁ (w.sandbox.unread p) = read at hmark₂ hcollected₂ hnow₂ ⊢
    obtain ⟨w₂, reader₂, batcher₂⟩ := read
    dsimp only at hmark₂ hcollected₂ hnow₂ ⊢
    split
    · refine .of_atStage ⟨hmark₂.trans (hmark₁.trans hmark), ?_, hcollected₂⟩
      rwa [hnow₂]
    · exact ⟨hmark₂.trans (hmark₁.trans hmark), hcollected₂.mono (Nat.zero_le _)⟩

/-- **On every leg what a job has collected was read lately.** -/
theorem HoldsOn.go (hpos : 0 < workshop.settings.flushInterval) {leg : Leg}
    (h : HoldsOn workshop.settings run job (reads log) (leg, w))
    (hpast : ∀ p, ∀ read ∈ reads log p, read.1 ≤ w.now)
    (hnew : ∀ p, w.sandbox.processes.length ≤ p → reads log p = []) :
    HoldsOn workshop.settings run job (reads (log ++ [⟨run, job, leg, w⟩]))
      (Supervision.go workshop run job w leg) := by
  cases leg with
  | begin source =>
    rw [Supervision.go]
    split
    · exact .of_ended _ _ _
    · trivial
  | reach part entry =>
    rw [Supervision.go]
    split
    · exact .of_ended _ _ _
    · split
      · exact .of_atStage trivial
      · trivial
  | write part entry =>
    rw [Supervision.go]
    split
    · exact .of_ended _ _ _
    · cases part <;> trivial
  | reachSpawn =>
    rw [Supervision.go]
    split
    · exact .of_atStage trivial
    · trivial
  | spawn =>
    rw [Supervision.go]
    dsimp only
    split
    · exact .of_ended _ _ _
    · rename_i p sandbox heq
      split
      · exact .of_ended _ _ _
      · -- a process that has just been started
        have hp : p = w.sandbox.processes.length := by
          rcases w.sandbox.spawn_cases run _ with ⟨failure, hfailed, -⟩ | ⟨hstarted, -⟩
          · rw [heq] at hfailed
            cases hfailed
          · rw [heq] at hstarted
            exact Except.ok.inj hstarted
        have hnone : reads (log ++ [⟨run, job, .spawn, w⟩]) p = [] := by
          simp [hnew p (by omega), Stride.intake]
        refine ⟨rfl, Nat.le_add_right _ _, ?_⟩
        rw [hnone]
        exact .start _ _ _ _
  | read p reader batcher nextFlush => exact h.read hpos (hpast p)
  | awaitExit p reader batcher =>
    obtain ⟨hmark, hcollected⟩ := h
    have hsame : reads (log ++ [⟨run, job, .awaitExit p reader batcher, w⟩]) p = reads log p := by
      simp [Stride.intake]
    rw [← hsame] at hcollected
    rw [Supervision.go]
    split
    · exact .of_atStage ⟨hmark, hcollected⟩
    · exact ⟨hmark, hcollected⟩
  | close p reader batcher =>
    rw [Supervision.go, close]
    dsimp only
    split <;> exact .of_ended _ _ _
  | rest =>
    have hsame : reads (log ++ [⟨run, job, .rest, w⟩]) = reads log := by
      funext p
      simp [Stride.intake]
    rw [hsame]
    exact h

/-- A job departs with what it has collected. -/
theorem holdsOn_depart {settings : Settings} {reads : Nat → List (Nat × String)}
    (hjob : w.jobs[run]? = some job)
    (h : job.stage.toLeg.HoldsRecent settings job.matchLines reads w.now) :
    HoldsOn settings run job reads (depart run job w) := by
  have hstay : HoldsOn settings run job reads (.rest, w) := by
    intro stage hstage
    have heq : job = { job with stage := stage } := Option.some.inj (hjob.symm.trans hstage)
    have hs : job.stage = stage := congrArg Job.stage heq
    rwa [← hs]
  rw [depart]
  split
  · trivial
  · split
    · exact .of_ended _ _ _
    · split
      · exact hstay
      · trivial
  · split
    · exact hstay
    · trivial
  · rename_i hs
    rwa [hs] at h
  · rename_i hs
    split
    · exact .of_ended _ _ _
    · split
      · exact hstay
      · rwa [hs] at h
  · exact hstay

/-- **No two jobs read the same process.** -/
theorem Underway.ne_of_intake? {p : Nat} {reader : LineReader} {batcher : Batcher Entry} {nextFlush : Nat}
    (h : Underway printed woken run job (.read p reader batcher nextFlush, w)) {r : Nat} (hr : r ≠ run)
    {job' : Job} (hjob' : w.jobs[r]? = some job') {p' : Nat} {reader' : LineReader}
    {batcher' : Batcher Entry} (hintake : job'.stage.intake? = some (p', reader', batcher')) : p' ≠ p := by
  obtain ⟨v, stage, ⟨log, helse, -, rfl⟩, q, hq, -⟩ := h
  obtain ⟨hp, howner⟩ := owned_eq_some.mp hq.owns
  have hfits := helse.fits r job' hr hjob'
  have howned : ∃ q', owned w.sandbox r p' = some q' := by
    cases hs : job'.stage with
    | reading p'' _ _ _ =>
      rw [hs] at hfits hintake
      obtain ⟨rfl, -⟩ : p'' = p' ∧ _ := by simpa [Stage.intake?] using hintake
      obtain ⟨q', hq', -⟩ := hfits
      exact ⟨q', hq'.owns⟩
    | awaiting p'' _ _ =>
      rw [hs] at hfits hintake
      obtain ⟨rfl, -⟩ : p'' = p' ∧ _ := by simpa [Stage.intake?] using hintake
      obtain ⟨q', hq', -⟩ := hfits
      exact ⟨q', hq'.owns⟩
    | _ => simp [hs, Stage.intake?] at hintake
  obtain ⟨q', hq'⟩ := howned
  obtain ⟨hp', howner'⟩ := owned_eq_some.mp hq'
  rintro rfl
  obtain rfl : q = q' := Option.some.inj (hp.symm.trans hp')
  exact hr (howner'.symm.trans howner)

/-! ## The account of a journey -/

/-- The journey accounts for what every process has printed that somebody cares for, and for what every job has
collected. -/
structure Recorded (settings : Settings) (printed : Nat → List String) (log : List Stride) (now : Nat)
    (w : Supervision) : Prop where
  complete : ∀ p, w.sandbox.Heeds p → (reads log p).map Prod.snd ++ w.sandbox.unread p = printed p
  past : ∀ p, ∀ read ∈ reads log p, read.1 ≤ now
  recent : ∀ (run : Nat) (job : Job), w.jobs[run]? = some job →
    job.stage.toLeg.HoldsRecent settings job.matchLines (reads log) now

/-- The journey accounts for all of it while a job is on its way. -/
structure Records (settings : Settings) (printed : Nat → List String) (run : Nat) (job : Job)
    (log : List Stride) (position : Leg × Supervision) : Prop where
  complete : ∀ p, position.2.sandbox.Heeds p →
    (reads log p).map Prod.snd ++ position.2.sandbox.unread p = printed p
  past : ∀ p, ∀ read ∈ reads log p, read.1 ≤ position.2.now
  others : ∀ (r : Nat) (job' : Job), r ≠ run → position.2.jobs[r]? = some job' →
    job'.stage.toLeg.HoldsRecent settings job'.matchLines (reads log) position.2.now
  own : HoldsOn settings run job (reads log) position

/-- Of a process that has not been started nothing has been read. -/
theorem Records.reads_eq_nil {settings : Settings} {position : Leg × Supervision}
    (h : Records settings printed run job log position) (hunderway : Underway printed woken run job position)
    {p : Nat} (hp : position.2.sandbox.processes.length ≤ p) : reads log p = [] := by
  obtain ⟨v, stage, ⟨events, helse, -, -⟩, -⟩ := hunderway
  obtain ⟨hunread, hheeds⟩ := Script.unread_of_length_le hp
  have hcomplete := h.complete p hheeds
  rw [helse.world.unspawned p hp, hunread, List.append_nil] at hcomplete
  exact List.map_eq_nil_iff.mp hcomplete

/-- **Every leg keeps the account.** -/
theorem Records.go (hpos : 0 < workshop.settings.flushInterval) {leg : Leg}
    (h : Records workshop.settings printed run job log (leg, w))
    (hunderway : Underway printed woken run job (leg, w)) :
    Records workshop.settings printed run job (log ++ [⟨run, job, leg, w⟩])
      (Supervision.go workshop run job w leg) := by
  have hspares : Spares run w (Supervision.go workshop run job w leg).2 := .go w leg
  constructor
  case complete =>
    intro p hheeds
    obtain ⟨hheeds', htaken⟩ := intake_go w leg p
    rw [reads_append, reads_singleton, List.map_append, List.append_assoc, htaken]
    exact h.complete p (hheeds' hheeds)
  case past =>
    intro p read hread
    rw [reads_append, reads_singleton] at hread
    rw [hspares.now]
    rcases List.mem_append.mp hread with hread | hread
    · exact h.past p read hread
    · exact Nat.le_of_eq (fst_of_mem_intake hread)
  case others =>
    intro r job' hr hjob'
    rw [hspares.jobs_of_ne hr] at hjob'
    refine (h.others r job' hr hjob').later (Nat.le_of_eq hspares.now.symm) ?_
    intro p reader batcher hintake
    have hnone : Stride.intake p ⟨run, job, leg, w⟩ = [] := by
      apply intake_eq_nil
      rintro reader' batcher' nextFlush rfl
      exact hunderway.ne_of_intake? hr hjob' hintake rfl
    rw [reads_append, reads_singleton, hnone, List.append_nil]
  case own => exact h.own.go hpos h.past fun p hp => h.reads_eq_nil hunderway hp

theorem records_depart {settings : Settings} (h : Recorded settings printed log w.now w)
    (hjob : w.jobs[run]? = some job) : Records settings printed run job log (depart run job w) := by
  have hspares : Spares run w (depart run job w).2 := .depart w
  constructor
  case complete =>
    intro p hheeds
    have hleaves : Script.LeavesUnread p w.sandbox (depart run job w).2.sandbox :=
      .of_worksBy (worksBy_depart w) fun hmodest => hmodest.1 p rfl
    rw [hleaves.unread_eq]
    exact h.complete p (hleaves.heeds hheeds)
  case past =>
    rw [hspares.now]
    exact h.past
  case others =>
    intro r job' hr hjob'
    rw [hspares.jobs_of_ne hr] at hjob'
    rw [hspares.now]
    exact h.recent r job' hjob'
  case own => exact holdsOn_depart hjob (h.recent run job hjob)

/-- At rest the account is that of all jobs. -/
theorem Records.recorded {settings : Settings} (h : Records settings printed run job log (.rest, w))
    (hunderway : Underway printed woken run job (.rest, w)) : Recorded settings printed log w.now w := by
  refine ⟨h.complete, h.past, ?_⟩
  intro r job' hjob'
  by_cases hr : r = run
  · subst hr
    obtain ⟨v, stage, ⟨_, _, hjob, _⟩, -⟩ := hunderway
    obtain rfl : { job with stage := stage } = job' := Option.some.inj (hjob.symm.trans hjob')
    exact h.own stage hjob
  · exact h.others r job' hr hjob'

namespace Recorded

variable {settings : Settings} {now : Nat} {w' : Supervision}

/-- What leaves the jobs and the processes alone leaves the account alone, also when it is later. -/
theorem of_eq {now' : Nat} (h : Recorded settings printed log now w) (hjobs : w'.jobs = w.jobs)
    (hp : w'.sandbox.processes = w.sandbox.processes) (hle : now ≤ now') :
    Recorded settings printed log now' w' where
  complete p hheeds := by
    have hleaves : Script.LeavesUnread p w.sandbox w'.sandbox := .of_eq hp
    rw [hleaves.unread_eq]
    exact h.complete p (hleaves.heeds hheeds)
  past p read hread := (h.past p read hread).trans hle
  recent r job hjob := (h.recent r job (hjobs ▸ hjob)).later hle fun _ _ _ _ => rfl

/-- **A job that goes on keeps the account.** -/
theorem resume (hpos : 0 < workshop.settings.flushInterval)
    (h : Recorded workshop.settings printed log w.now w) (hsound : Sound printed (run :: woken) w) :
    Recorded workshop.settings printed (log ++ strides workshop w run)
      (Supervision.resume workshop w run).now (Supervision.resume workshop w run) := by
  cases hjob : w.jobs[run]? with
  | none =>
    have hstrides : strides workshop w run = [] := by simp [strides, hjob]
    have hsame : Supervision.resume workshop w run = w := by simp [Supervision.resume, hjob]
    rw [hstrides, hsame, List.append_nil]
    exact h
  | some job =>
    obtain ⟨v, hsees, hfits⟩ := hsound.exists_sees hjob woken
      fun r hr hmem => (List.mem_cons.mp hmem).resolve_left hr
    obtain ⟨hunderway, hrecords⟩ := strides_induction
      (P := fun log position => Underway printed woken run job position ∧
        Records workshop.settings printed run job log position)
      hjob ⟨underway_depart hsees hfits, records_depart h hjob⟩
      fun log leg w hw => ⟨hw.1.go workshop, hw.2.go hpos hw.1⟩
    exact hrecords.recorded hunderway

/-- Jobs that go on one after another keep the account. -/
theorem foldl_resume (hpos : 0 < workshop.settings.flushInterval)
    (h : Recorded workshop.settings printed log w.now w) (hsound : Sound printed woken w) :
    Recorded workshop.settings printed
      (log ++ said (Supervision.resume workshop) (strides workshop) w woken)
      (woken.foldl (Supervision.resume workshop) w).now
      (woken.foldl (Supervision.resume workshop) w) := by
  induction woken generalizing w log with
  | nil => simpa using h
  | cons run woken ih =>
    rw [said, ← List.append_assoc, List.foldl_cons]
    exact ih (h.resume hpos hsound) hsound.resume

theorem settle (hpos : 0 < workshop.settings.flushInterval)
    (h : Recorded workshop.settings printed log w.now w) (hsound : Sound printed w.ready w) :
    Recorded workshop.settings printed (log ++ stridesReady workshop w)
      (Supervision.settle workshop w).now (Supervision.settle workshop w) :=
  foldl_resume (w := { w with ready := [] }) hpos (h.of_eq rfl rfl (Nat.le_refl _)) hsound.setOff

/-- A job whose timer has gone off by a time has nothing left that is collected. -/
theorem elapseJob (h : Recorded workshop.settings printed log now w) (run : Nat) :
    Recorded workshop.settings printed log now (Supervision.elapseJob workshop w run now) := by
  have hspares : Spares run w (Supervision.elapseJob workshop w run now) := .elapseJob ..
  refine ⟨by rw [sandbox_elapseJob]; exact h.complete, h.past, ?_⟩
  intro r job hjob
  by_cases hr : r = run
  · subst hr
    obtain ⟨before, hbefore, rfl⟩ := exists_stage_elapseJob hjob
    have hrecent := h.recent r before hbefore
    dsimp only
    cases hs : before.stage with
    | reading p reader batcher nextFlush =>
      rw [hs] at hrecent
      obtain ⟨hmark, hnext, hcollected⟩ := hrecent
      rw [Stage.elapse]
      split
      · rename_i hdue
        exact ⟨batcher.mark_tick.trans hmark, nextTick_le hdue, Collected.tick hcollected _⟩
      · exact ⟨hmark, hnext, hcollected⟩
    | _ => rwa [hs] at hrecent
  · rw [hspares.jobs_of_ne hr] at hjob
    exact h.recent r job hjob

/-- **Time keeps the account.** -/
theorem elapse (h : Recorded workshop.settings printed log w.now w) (ms : Nat) :
    Recorded workshop.settings printed log (Supervision.elapse workshop w ms).now
      (Supervision.elapse workshop w ms) :=
  elapse_induction (P := Recorded workshop.settings printed log (w.now + ms))
    (h.of_eq rfl rfl (Nat.le_add_right ..)) (fun _ run hw' => hw'.elapseJob run)
    fun _ _ hw' => hw'.of_eq rfl rfl (Nat.le_refl _)

/-- **A process that is told what to do** may print something, which is unread then. -/
theorem addressed (h : Recorded settings printed log w.now w) {action : Action} {p : Nat}
    (ha : action.addressee? = some p) :
    ∀ p', (perform workshop w action).2.sandbox.Heeds p' →
      (reads log p').map Prod.snd ++ (perform workshop w action).2.sandbox.unread p' =
        printed p' ++ prints p' w (.act action) := by
  intro p' hheeds
  cases hq : w.sandbox.controlled? p with
  | none =>
    rw [perform_of_uncontrolled ha hq] at hheeds ⊢
    rw [prints_of_uncontrolled ha hq, List.append_nil]
    exact h.complete p' hheeds
  | some q =>
    have hp := ((w.sandbox.controlled?_eq_some p).mp hq).1
    rw [perform_of_controlled ha hq, sandbox_wake] at hheeds ⊢
    by_cases hpp : p' = p
    · rw [hpp] at hheeds ⊢
      have heffect : (w.sandbox.modifyProcess p action.effect).processes[p]? = some (action.effect q) := by
        rw [Script.getElem?_modifyProcess, if_pos rfl, hp, Option.map_some]
      have hattended : q.isAttended = true := by
        rw [← action.isAttended_effect q]
        exact hheeds _ heffect
      have hbefore : w.sandbox.Heeds p := fun q' hq' => by
        rwa [← Option.some.inj (hp.symm.trans hq')]
      rw [Script.unread_of_getElem? heffect, unread_effect ha hq hattended, ← List.append_assoc,
        ← h.complete p hbefore, Script.unread_of_getElem? hp]
    · have hsame : (w.sandbox.modifyProcess p action.effect).processes[p']? = w.sandbox.processes[p']? := by
        rw [Script.getElem?_modifyProcess, if_neg (Ne.symm hpp)]
      rw [Script.Heeds, hsame] at hheeds
      rw [prints_of_ne ha hpp, List.append_nil, Script.unread, hsame]
      exact h.complete p' hheeds

theorem quiet (h : Recorded settings printed log w.now w) {t : Turn} (ht : t.isQuiet = true) :
    Recorded settings (fun p => printed p ++ prints p w t) log (Supervision.turn workshop w t).now
      (Supervision.turn workshop w t) := by
  obtain ⟨hjobs, -, -⟩ := quiet_turn workshop ht w
  rw [now_of_isQuiet workshop ht]
  refine ⟨?_, h.past, fun r job hjob => h.recent r job (hjobs ▸ hjob)⟩
  cases t with
  | settle => cases ht
  | act action =>
    cases ha : action.addressee? with
    | some p => exact h.addressed ha
    | none =>
      intro p hheeds
      have hleaves : Script.LeavesUnread p w.sandbox (perform workshop w action).2.sandbox :=
        .of_eq (processes_of_unaddressed ht ha)
      rw [prints_of_unaddressed ha, List.append_nil, Supervision.turn, hleaves.unread_eq]
      exact h.complete p (hleaves.heeds hheeds)

/-- A run that is started has collected nothing. -/
theorem start (h : Recorded settings printed log w.now w) (source text : String) (matchLines : Bool)
    (environment : Environment) :
    Recorded settings printed log (w.start source text matchLines environment).now
      (w.start source text matchLines environment) := by
  have hnow : (w.start source text matchLines environment).now = w.now := now_wakeActive w
  rw [hnow]
  refine ⟨by rw [sandbox_start]; exact h.complete, h.past, ?_⟩
  intro r job hjob
  rcases jobs_start_cases source text matchLines environment hjob with hjob | ⟨-, rfl⟩
  · exact h.recent r job hjob
  · trivial

/-- **Every turn keeps the account.** -/
theorem turn (hpos : 0 < workshop.settings.flushInterval)
    (h : Recorded workshop.settings printed log w.now w) (hsound : Sound printed w.ready w) (t : Turn) :
    Recorded workshop.settings (fun p => printed p ++ prints p w t) (log ++ stridesTurn workshop w t)
      (Supervision.turn workshop w t).now (Supervision.turn workshop w t) := by
  rcases t.kinds with ht | rfl | ⟨ms, rfl⟩ | ⟨source, text, matchLines, environment, rfl⟩
  · rw [stridesTurn_of_isQuiet ht, List.append_nil]
    exact h.quiet ht
  · simp only [prints, List.append_nil]
    exact h.settle hpos hsound
  · simp only [prints, List.append_nil]
    exact (h.settle hpos hsound).elapse ms
  · simp only [prints, stridesTurn, List.append_nil]
    exact h.start source text matchLines environment

/-- When the timer of a job goes off sooner, what is collected has to wait for less. -/
theorem hasten (h : Recorded settings printed log now w) (run time : Nat) :
    Recorded settings printed log now (w.hasten run time) := by
  rcases hasten_cases w run time with heq | ⟨job, p, reader, batcher, nextFlush, hjob, hs, heq⟩
  · rwa [heq]
  · rw [heq]
    refine ⟨h.complete, h.past, ?_⟩
    intro r job' hjob'
    by_cases hr : r = run
    · subst hr
      obtain rfl : { job with stage := .reading p reader batcher (min nextFlush time) } = job' := by
        simpa [atStage, hjob] using hjob'
      have hrecent := h.recent r job hjob
      rw [hs] at hrecent
      obtain ⟨hmark, hnext, hcollected⟩ := hrecent
      exact ⟨hmark, (Nat.min_le_left ..).trans hnext, Collected.mono hcollected (Nat.min_le_left ..)⟩
    · rw [(Spares.atStage w _).jobs_of_ne hr] at hjob'
      exact h.recent r job' hjob'

/-- Who is woken is nothing to the account, and neither is time that goes by. -/
theorem wakeDue (h : Recorded settings printed log now w) (hle : now ≤ w.now) :
    Recorded settings printed log w.wakeDue.now w.wakeDue := by
  obtain ⟨-, hsandbox, hjobs, hnow, -⟩ := wakeDue_spec w
  rw [hnow]
  exact h.of_eq hjobs (by rw [hsandbox]) hle

/-- **Every moment keeps the account.** -/
theorem pass (hpos : 0 < workshop.settings.flushInterval)
    (h : Recorded workshop.settings printed log w.now w) (hsound : Sound printed w.ready w) (m : Moment) :
    Recorded workshop.settings (fun p => printed p ++ printsAt p w m) (log ++ stridesAt workshop w m)
      (Supervision.pass workshop w m).now (Supervision.pass workshop w m) := by
  cases m with
  | turn t => exact h.turn hpos hsound t
  | delay ms =>
    simp only [printsAt, stridesAt, List.append_nil]
    have hlater : Recorded workshop.settings printed log w.now { w with now := w.now + ms } :=
      h.of_eq rfl rfl (Nat.le_refl _)
    exact hlater.wakeDue (Nat.le_add_right ..)
  | hasten run time =>
    simp only [printsAt, stridesAt, List.append_nil]
    have hnow : (w.hasten run time).now = w.now := by
      rcases hasten_cases w run time with heq | ⟨_, _, _, _, _, _, _, heq⟩ <;> rw [heq]
      rfl
    exact (h.hasten run time).wakeDue hnow.ge

end Recorded

/-- **The journey of any moments accounts** for what every process has printed that somebody cares for, and
for what every job has collected. -/
theorem recorded_lapse (hpos : 0 < workshop.settings.flushInterval) (moments : List Moment) :
    Recorded workshop.settings (printedAt workshop moments) (journey workshop moments)
      (lapse workshop moments).now (lapse workshop moments) := by
  induction moments using List.reverseRecOn with
  | nil =>
    constructor
    · intro p _
      simp [lapse, journey, printedAt, initial, Script.empty, Script.unread]
    · simp [journey]
    · simp [lapse, initial]
  | append_singleton moments m ih =>
    have hprinted : printedAt workshop (moments ++ [m]) = fun p =>
        printedAt workshop moments p ++ printsAt p (lapse workshop moments) m :=
      funext fun p => said_append_singleton ..
    have hjourney : journey workshop (moments ++ [m]) =
        journey workshop moments ++ stridesAt workshop (lapse workshop moments) m :=
      said_append_singleton ..
    have hlapse : lapse workshop (moments ++ [m]) = Supervision.pass workshop (lapse workshop moments) m := by
      simp [lapse]
    rw [hprinted, hjourney, hlapse]
    exact ih.pass hpos (sound_lapse workshop moments) m

end Scratchpad.Run
