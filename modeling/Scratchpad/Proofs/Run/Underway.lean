import Scratchpad.Proofs.Run.Conduct

/-!
# A run on its way

A run that goes on comes from leg to leg until it rests at a stage. On the way to its process it owns
nothing and has delivered nothing. Once it has a process, everything that it has read is delivered,
collected, or kept by its reader, and at the end of the way everything that the process printed has been
delivered.

## Main definitions

* `OnLeg`: how the view of a run fits the leg that it is on.
* `Underway`: a run on its way, while all is well elsewhere.

## Main statements

* `Sees.readChunks`: nothing is lost while a run reads.
* `Underway.go`: every leg leads to a leg or a stage that the view of the run fits.
* `underway_depart`: a run that fits its stage fits the leg on which it departs.
-/

namespace Scratchpad.Run

open Log Sandbox Supervision

/-- How the view of a run fits the leg that it is on. -/
def OnLeg (printed : Nat → List String) (matchLines : Bool) (run : Nat) (v : View) (isWoken : Prop)
    (stage : Stage) : Leg → Prop
  | .begin _ | .reach _ _ | .write _ _ | .reachSpawn | .spawn => v.Unspawned
  | .read p reader batcher _ =>
    ∃ q, v.Attends p q ∧ v.Flows printed matchLines p q reader batcher
  | .awaitExit p reader batcher | .close p reader batcher =>
    ∃ q, v.Attends p q ∧ v.Flows printed matchLines p q reader batcher ∧ q.control ≠ .alive ∧
      q.unread = [] ∧ v.isCancelled = false
  | .rest => Fits printed matchLines run v isWoken stage

/-- A run on its way, while all is well elsewhere. -/
def Underway (printed : Nat → List String) (woken : List Nat) (run : Nat) (job : Job)
    (position : Leg × Supervision) : Prop :=
  ∃ v stage, Sees printed woken run job stage position.2 v ∧
    OnLeg printed job.matchLines run v (run ∈ woken) stage position.1

variable {printed : Nat → List String} {woken : List Nat} {run : Nat} {job : Job}
  {stage : Stage} {w : Supervision} {v : View}

/-! ## What a run does in one go -/

theorem View.Attends.withProcess {p : Nat} {q : Process} (h : v.Attends p q) {q' : Process}
    (ha : q'.isAttended = true) (hk : q'.isKilled = false) : (v.withProcess p q').Attends p q' where
  owns := v.owns_withProcess p q'
  only p' hp := (v.owns_withProcess_of_ne q' hp).trans (h.only p' hp)
  isAttended := ha
  isKilled := hk

/-- A run owns no other process than the one it attends to. -/
theorem View.Attends.eq_of_owns {p p' : Nat} {q q' : Process} (h : v.Attends p q)
    (hq' : v.owns p' = some q') : p = p' ∧ q = q' := by
  by_cases hp : p' = p
  · rw [hp, h.owns] at hq'
    exact ⟨hp.symm, Option.some.inj hq'⟩
  · rw [h.only p' hp] at hq'
    cases hq'

/-- What a run attends to depends on what it owns alone. -/
theorem View.Attends.of_owns_eq {p : Nat} {q : Process} (h : v.Attends p q) {v' : View}
    (howns : v'.owns = v.owns) : v'.Attends p q where
  owns := by rw [howns]; exact h.owns
  only p' hp := by rw [howns]; exact h.only p' hp
  isAttended := h.isAttended
  isKilled := h.isKilled

namespace Sees

theorem conclude (h : Sees printed woken run job stage w v) (outcome : Outcome) :
    Sees printed woken run job .ended (w.conclude run job outcome)
      (v.finish run outcome) := (h.finish outcome).atStage .ended

theorem fail (h : Sees printed woken run job stage w v) (message : String) :
    Sees printed woken run job .ended (w.fail run job message)
      ((v.deliver run [Entry.ofFailure message]).finish run (.failed message)) :=
  (h.deliver [Entry.ofFailure message]).conclude (.failed message)

theorem kill (h : Sees printed woken run job stage w v) {p : Nat} {q : Process} (hq : v.owns p = some q) :
    Sees printed woken run job stage { w with sandbox := w.sandbox.kill p }
      (v.withProcess p (if q.control = .alive then { q with isKilled := true } else q)) := by
  have hrun := (h.processes_eq hq).2
  exact h.modifyProcess hq (by split <;> exact hrun)

theorem dismiss (h : Sees printed woken run job stage w v) {p : Nat} {q : Process} (hq : v.owns p = some q) :
    Sees printed woken run job stage { w with sandbox := w.sandbox.dismiss p }
      (v.withProcess p { q with isAttended := false }) :=
  h.modifyProcess hq (h.processes_eq hq).2

theorem markRead (h : Sees printed woken run job stage w v) {p : Nat} {q : Process}
    (hq : v.owns p = some q) :
    Sees printed woken run job stage { w with sandbox := w.sandbox.markRead p }
      (v.withProcess p { q with unread := [] }) :=
  h.modifyProcess hq (h.processes_eq hq).2

/-- A run that abandons its process kills it if it goes on, and cares for it no longer. -/
theorem abandon (h : Sees printed woken run job stage w v) {p : Nat} {q : Process} (hq : v.owns p = some q) :
    ∃ q', Sees printed woken run job .ended (w.abandon run p) (v.withProcess p q') ∧
      q'.isAttended = false ∧ (q'.control = .alive → q'.isKilled = true) := by
  have hdismissed := ((h.kill hq).dismiss (View.owns_withProcess ..)).atStage .ended
  rw [View.withProcess_withProcess] at hdismissed
  refine ⟨_, hdismissed, rfl, ?_⟩
  split
  · exact fun _ => rfl
  · exact fun hcontrol => absurd hcontrol ‹_›

/-- A batch that is delivered is delivered. -/
theorem deliverBatch (h : Sees printed woken run job stage w v) (hphase : v.phase.isSome)
    (batch : Option (List Entry)) :
    ∃ told, Sees printed woken run job stage (w.deliverBatch run job batch) { v with told := told } ∧
      delivered told = delivered v.told ++ batch.getD [] := by
  cases batch with
  | none => exact ⟨v.told, h, by simp⟩
  | some entries =>
    obtain ⟨heq, hdelivered⟩ := View.delivered_told_deliver run hphase entries
    refine ⟨(v.deliver run entries).told, ?_, hdelivered⟩
    rw [← heq]
    exact h.deliver entries

/-- Nothing is told when a run delivers a batch that does not have the slot. -/
theorem deliverBatch_of_phase (h : Sees printed woken run job stage w v) (hphase : v.phase = none)
    (batch : Option (List Entry)) :
    Sees printed woken run job stage (w.deliverBatch run job batch) v := by
  cases batch with
  | none => exact h
  | some entries =>
    have hdeliver := h.deliver entries
    rwa [View.deliver, if_neg (by simp [hphase])] at hdeliver

/-- **Nothing is lost while a run reads.** What has been collected and the entries of what is read are
delivered or collected. -/
theorem readChunks (h : Sees printed woken run job stage w v) (hphase : v.phase.isSome) (reader : LineReader)
    (batcher : Batcher Entry) (chunks : List String) :
    ∃ told, Sees printed woken run job stage (w.readChunks run job reader batcher chunks).1
        { v with told := told } ∧
      delivered told ++ (w.readChunks run job reader batcher chunks).2.2.queue =
        delivered v.told ++ batcher.queue ++ (reader.feedAll chunks).1 ∧
      (w.readChunks run job reader batcher chunks).2.1 = (reader.feedAll chunks).2 := by
  induction chunks generalizing w v reader batcher with
  | nil => exact ⟨v.told, h, by simp [Supervision.readChunks, LineReader.feedAll_nil], rfl⟩
  | cons chunk chunks ih =>
    obtain ⟨told, hsees, htold⟩ := h.deliverBatch hphase (batcher.push (reader.feed chunk).1).1
    obtain ⟨told', hsees', htold', hreader⟩ :=
      ih hsees hphase (reader.feed chunk).2 (batcher.push (reader.feed chunk).1).2
    refine ⟨told', hsees', ?_, ?_⟩
    · rw [LineReader.feedAll_cons, Supervision.readChunks]
      refine htold'.trans ?_
      simp only [htold, List.append_assoc]
      rw [← List.append_assoc (Option.getD _ _), Batcher.push_flows, List.append_assoc]
    · rw [LineReader.feedAll_cons]
      exact hreader

/-- Nothing is lost while a run delivers what has been collected. -/
theorem flushDue (h : Sees printed woken run job stage w v) (hphase : v.phase.isSome) (workshop : Workshop)
    (batcher : Batcher Entry) (nextFlush : Nat) :
    ∃ told, Sees printed woken run job stage
        (Supervision.flushDue workshop w run job batcher nextFlush).1 { v with told := told } ∧
      delivered told ++ (Supervision.flushDue workshop w run job batcher nextFlush).2.1.queue =
        delivered v.told ++ batcher.queue := by
  rw [Supervision.flushDue]
  split
  · obtain ⟨told, hsees, htold⟩ := h.deliverBatch hphase batcher.tick.1
    exact ⟨told, hsees, by rw [htold, List.append_assoc, Batcher.tick_flows]⟩
  · exact ⟨v.told, h, rfl⟩

/-- **Everything that a process has printed has been delivered** when its run ends by itself. -/
theorem close (h : Sees printed woken run job stage w v) {p : Nat} {q : Process} {reader : LineReader}
    {batcher : Batcher Entry} (hq : v.Attends p q)
    (hflow : v.Flows printed job.matchLines p q reader batcher) (hcontrol : q.control ≠ .alive)
    (hunread : q.unread = []) (hc : v.isCancelled = false) :
    ∃ v', Sees printed woken run job .ended (w.close run job p reader batcher) v' ∧
      v'.Over printed job.matchLines run := by
  obtain ⟨hphase, chunks, hprinted, hfed⟩ := hflow hc
  have hsome : v.phase.isSome := by rw [hphase]; rfl
  obtain ⟨told, hsees, htold⟩ := h.deliverBatch hsome (batcher.push reader.flush.1.toList).1
  obtain ⟨told', hsees', htold'⟩ :=
    hsees.deliverBatch hsome (batcher.push reader.flush.1.toList).2.drain.1
  have hall : delivered told' = LineReader.entriesOf job.matchLines (String.join (printed p)) := by
    rw [htold', htold, Batcher.drain_flows, List.append_assoc, Batcher.push_flows, hprinted, hunread,
      List.append_nil, LineReader.entriesOf_join, hfed, List.append_assoc]
  have hprocess := (hsees'.processes_eq hq.owns).1
  have hdismissed := hsees'.dismiss hq.owns
  set v' := View.withProcess p { q with isAttended := false } { v with told := told' }
  have howns : v'.owns p = some { q with isAttended := false } := View.owns_withProcess ..
  have honly : ∀ p', p' ≠ p → v'.owns p' = none := fun p' hp =>
    (View.owns_withProcess_of_ne _ _ hp).trans (hq.only p' hp)
  have hsome' : v'.phase.isSome := hsome
  cases hend : q.control with
  | alive => exact absurd hend hcontrol
  | exited code =>
    refine ⟨v'.finish run (.completed code), ?_, ?_⟩
    · simpa [Supervision.close, hprocess, hend] using hdismissed.conclude (.completed code)
    · refine View.over_of_attended rfl howns honly rfl (by simp [hend]) (fun code' hcode => ?_) ?_
      · obtain rfl : code = code' := by simpa [hend] using hcode
        exact ⟨(View.delivered_told_finish _).trans hall, View.mem_told_finish hsome' _⟩
      · simp [hend]
  | lost =>
    have hentry := View.delivered_told_deliver run hsome' [Entry.ofFailure lossMessage]
    refine ⟨(v'.deliver run [Entry.ofFailure lossMessage]).finish run (.failed lossMessage), ?_, ?_⟩
    · simpa [Supervision.close, hprocess, hend, lossMessage] using hdismissed.fail lossMessage
    · rw [hentry.1]
      refine View.over_of_attended rfl howns honly rfl (by simp [hend]) (by simp [hend]) fun _ => ?_
      refine ⟨(View.delivered_told_finish _).trans ?_, View.mem_told_finish ?_ _⟩
      · rw [hentry.2]
        exact congrArg (· ++ _) hall
      · exact hsome'

end Sees

/-! ## Leg by leg -/

section Legs

variable (workshop : Workshop)

/-- A run without a process that fails is over. -/
theorem Underway.of_fail (h : Sees printed woken run job stage w v)
    (hv : v.Unspawned) (message : String) :
    Underway printed woken run job (.rest, w.fail run job message) := by
  refine ⟨_, .ended, h.fail message, View.over_of_unowned rfl ?_⟩
  intro p
  rw [View.finish, View.deliver]
  split <;> exact hv.owns p

/-- A run without a process ends when it has been told to. -/
theorem View.Unspawned.over (hv : v.Unspawned) (h : Sees printed woken run job stage w v)
    (hc : v.isCancelled = true) {matchLines : Bool} : v.Over printed matchLines run :=
  View.over_of_unowned (h.phase_eq_none hc) hv.owns

theorem Underway.reach (h : Sees printed woken run job stage w v)
    (hv : v.Unspawned) (part : Part) (entry : String) :
    Underway printed woken run job (go workshop run job w (.reach part entry)) := by
  rw [go]
  split
  · rename_i hc
    rw [h.isCancelled_eq] at hc
    exact ⟨v, .ended, h.atStage .ended, hv.over h hc⟩
  · rename_i hc
    rw [h.isCancelled_eq, Bool.not_eq_true] at hc
    split
    · rename_i hheld
      exact ⟨_, .writing part entry, (h.await .write hheld).atStage _, ⟨hv.owns, hv.silent⟩,
        .inr ⟨hc, View.waits_atGate ..⟩⟩
    · exact ⟨v, stage, h, hv⟩

theorem Underway.write (h : Sees printed woken run job stage w v)
    (hv : v.Unspawned) (part : Part) (entry : String) :
    Underway printed woken run job (go workshop run job w (.write part entry)) := by
  have hwrite := h.write (part.path workshop) (part.contents entry)
  rw [go]
  split
  · rename_i failure sandbox heq
    rw [heq] at hwrite
    exact .of_fail hwrite hv failure.message
  · rename_i sandbox heq
    rw [heq] at hwrite
    cases part <;> exact ⟨v, stage, hwrite, hv⟩

theorem Underway.reachSpawn (h : Sees printed woken run job stage w v)
    (hv : v.Unspawned) : Underway printed woken run job (go workshop run job w .reachSpawn) := by
  rw [go]
  split
  · rename_i hheld
    exact ⟨_, .spawning, (h.await .spawn hheld).atStage _, ⟨hv.owns, hv.silent⟩,
      .inr (View.waits_atGate ..)⟩
  · exact ⟨v, stage, h, hv⟩

/-- A run that has been told to end abandons its process. -/
theorem Underway.of_abandon (h : Sees printed woken run job stage w v) {p : Nat}
    {q : Process} (hq : v.Attends p q) (hc : v.isCancelled = true) :
    Underway printed woken run job (.rest, w.abandon run p) := by
  obtain ⟨q', hsees, hdismissed, hkilled⟩ := h.abandon hq.owns
  refine ⟨_, .ended, hsees, View.over_of_cancelled (h.phase_eq_none hc) hc ?_⟩
  intro p' q'' hq''
  by_cases hp : p' = p
  · obtain rfl : q' = q'' := by simpa [hp] using hq''
    exact ⟨hdismissed, hkilled⟩
  · rw [View.owns_withProcess_of_ne _ _ hp, hq.only p' hp] at hq''
    cases hq''

theorem Underway.spawn (h : Sees printed woken run job stage w v)
    (hv : v.Unspawned) : Underway printed woken run job (go workshop run job w .spawn) := by
  rw [go]
  dsimp only
  split
  · rename_i failure sandbox heq
    exact .of_fail (h.spawn_error heq) hv failure.message
  · rename_i p sandbox heq
    obtain ⟨hsilent, hsees⟩ := h.spawn_ok heq
    set q : Process := ⟨run, [], .alive, false, true⟩
    have hq : (v.withProcess p q).Attends p q :=
      ⟨View.owns_withProcess .., fun p' hp => (View.owns_withProcess_of_ne _ _ hp).trans (hv.owns p'),
        rfl, rfl⟩
    split
    · -- started too late
      rename_i hc
      rw [hsees.isCancelled_eq] at hc
      exact .of_abandon hsees hq hc
    · rename_i hc
      rw [hsees.isCancelled_eq, Bool.not_eq_true] at hc
      refine ⟨_, stage, hsees.setRunning, q, ⟨hq.owns, hq.only, rfl, rfl⟩, ?_⟩
      intro _
      obtain ⟨hphase, hnone⟩ := hv.silent hc
      refine ⟨by simp [View.setRunning, View.withProcess, hphase], [], by simp [hsilent, q], ?_⟩
      simp [LineReader.feedAll_nil, View.setRunning, View.withProcess, hnone]

/-- A run that has read everything that its process printed rests until there is more, or goes on to the
end of the process. -/
theorem Underway.read (h : Sees printed woken run job stage w v) {p : Nat}
    {q : Process} {reader : LineReader} {batcher : Batcher Entry} (hq : v.Attends p q)
    (hflow : v.Flows printed job.matchLines p q reader batcher) (nextFlush : Nat) :
    Underway printed woken run job (go workshop run job w (.read p reader batcher nextFlush)) := by
  rw [go]
  split
  · rename_i hc
    rw [h.isCancelled_eq] at hc
    exact .of_abandon h hq hc
  · rename_i hc
    rw [h.isCancelled_eq, Bool.not_eq_true] at hc
    obtain ⟨hphase, chunks, hprinted, hfed⟩ := hflow hc
    have hsome : v.phase.isSome := by rw [hphase]; rfl
    obtain ⟨told, hsees, htold⟩ := h.flushDue hsome workshop batcher nextFlush
    generalize flushDue workshop w run job batcher nextFlush = due at hsees htold ⊢
    obtain ⟨w₁, batcher₁, nextFlush₁⟩ := due
    have hprocess := (hsees.processes_eq hq.owns).1
    obtain ⟨told', hsees', htold', hreader⟩ :=
      (hsees.markRead hq.owns).readChunks hsome reader batcher₁ q.unread
    dsimp only at hprocess htold hsees' htold' ⊢
    rw [hprocess, Option.map_some, Option.getD_some]
    generalize readChunks _ run job reader batcher₁ q.unread = read at hsees' htold' hreader ⊢
    obtain ⟨w₂, reader₂, batcher₂⟩ := read
    have hprocess' := (hsees'.processes_eq (View.owns_withProcess ..)).1
    have hread : (v.withProcess p { q with unread := [] }).Attends p { q with unread := [] } :=
      hq.withProcess hq.isAttended hq.isKilled
    have hflow' : ({ v.withProcess p { q with unread := [] } with told := told' } : View).Flows printed
        job.matchLines p { q with unread := [] } reader₂ batcher₂ := fun _ => by
      refine ⟨hphase, chunks ++ q.unread, by rw [hprinted, List.append_nil], ?_⟩
      rw [LineReader.feedAll_append, hfed, ← htold]
      exact Prod.ext htold'.symm hreader.symm
    split
    · rename_i hcontrolled
      refine ⟨_, _, hsees'.atStage _, _, hread.of_owns_eq rfl, hflow', .inr ⟨hc, ?_, rfl⟩⟩
      simpa [Script.controlled?, hprocess'] using hcontrolled
    · rename_i hcontrolled
      refine ⟨_, stage, hsees', _, hread.of_owns_eq rfl, hflow', ?_, rfl, hc⟩
      simpa [Script.controlled?, hprocess'] using hcontrolled

theorem Underway.awaitExit (h : Sees printed woken run job stage w v) {p : Nat} {q : Process}
    {reader : LineReader} {batcher : Batcher Entry} (hq : v.Attends p q)
    (hflow : v.Flows printed job.matchLines p q reader batcher) (hcontrol : q.control ≠ .alive)
    (hunread : q.unread = []) (hc : v.isCancelled = false) :
    Underway printed woken run job (go workshop run job w (.awaitExit p reader batcher)) := by
  rw [go]
  split
  · rename_i hheld
    exact ⟨_, .awaiting p reader batcher, (h.await .wait hheld).atStage _, q,
      hq.of_owns_eq rfl, hflow, hcontrol, hunread, .inr ⟨hc, View.waits_atGate ..⟩⟩
  · exact ⟨v, stage, h, q, hq, hflow, hcontrol, hunread, hc⟩

/-- **Every leg leads to a leg or a stage that the view of the run fits.** -/
theorem Underway.go {leg : Leg} (h : Underway printed woken run job (leg, w)) :
    Underway printed woken run job (go workshop run job w leg) := by
  obtain ⟨v, stage, hsees, hleg⟩ := h
  cases leg with
  | begin source =>
    rw [Supervision.go]
    split
    · exact .of_fail hsees hleg _
    · exact ⟨v, stage, hsees, hleg⟩
  | reach part entry => exact .reach workshop hsees hleg part entry
  | write part entry => exact .write workshop hsees hleg part entry
  | reachSpawn => exact .reachSpawn workshop hsees hleg
  | spawn => exact .spawn workshop hsees hleg
  | read p reader batcher nextFlush =>
    obtain ⟨q, hq, hflow⟩ := hleg
    exact .read workshop hsees hq hflow nextFlush
  | awaitExit p reader batcher =>
    obtain ⟨q, hq, hflow, hcontrol, hunread, hc⟩ := hleg
    exact .awaitExit workshop hsees hq hflow hcontrol hunread hc
  | close p reader batcher =>
    obtain ⟨q, hq, hflow, hcontrol, hunread, hc⟩ := hleg
    obtain ⟨v', hsees', hover⟩ := hsees.close hq hflow hcontrol hunread hc
    exact ⟨v', .ended, hsees', hover⟩
  | rest => exact ⟨v, stage, hsees, hleg⟩

/-- **A run that fits its stage fits the leg on which it departs.** A run that has been told to end does
not depart, and neither does one that still waits at a gate. -/
theorem underway_depart {isWoken : Prop} (h : Sees printed woken run job job.stage w v)
    (hfits : Fits printed job.matchLines run v isWoken job.stage) :
    Underway printed woken run job (depart run job w) := by
  rw [depart]
  cases hs : job.stage with
  | fresh source =>
    rw [hs] at hfits
    exact ⟨v, _, h, hfits.1⟩
  | writing part entry =>
    rw [hs] at hfits
    dsimp only
    split
    · rename_i hc
      rw [h.isCancelled_eq] at hc
      exact ⟨_, .ended, (h.leave .write).atStage _,
        View.over_of_unowned (h.phase_eq_none hc) hfits.1.owns⟩
    · rename_i hc
      rw [h.isCancelled_eq, Bool.not_eq_true] at hc
      split
      · rename_i hwaits
        rw [h.waits_eq] at hwaits
        exact ⟨v, _, h, by rw [hs]; exact ⟨hfits.1, .inr ⟨hc, hwaits⟩⟩⟩
      · exact ⟨v, _, h, hfits.1⟩
  | spawning =>
    rw [hs] at hfits
    dsimp only
    split
    · rename_i hwaits
      have hwaits' : v.waits .spawn = true := (h.waits_eq .spawn).symm.trans hwaits
      exact ⟨v, _, h, by rw [hs]; exact ⟨hfits.1, .inr hwaits'⟩⟩
    · exact ⟨v, _, h, hfits.1⟩
  | reading p reader batcher nextFlush =>
    rw [hs] at hfits
    obtain ⟨q, hq, hflow, -⟩ := hfits
    exact ⟨v, _, h, q, hq, hflow⟩
  | awaiting p reader batcher =>
    rw [hs] at hfits
    obtain ⟨q, hq, hflow, hcontrol, hunread, -⟩ := hfits
    dsimp only
    split
    · rename_i hc
      rw [h.isCancelled_eq] at hc
      exact .of_abandon (h.leave .wait) (hq.of_owns_eq rfl) hc
    · rename_i hc
      rw [h.isCancelled_eq, Bool.not_eq_true] at hc
      split
      · rename_i hwaits
        have hwaits' : v.waits .wait = true := (h.waits_eq .wait).symm.trans hwaits
        exact ⟨v, _, h, by rw [hs]; exact ⟨q, hq, hflow, hcontrol, hunread, .inr ⟨hc, hwaits'⟩⟩⟩
      · exact ⟨v, _, h, q, hq, hflow, hcontrol, hunread, hc⟩
  | ended => exact ⟨v, _, h, by rw [hs] at hfits ⊢; exact hfits⟩

end Legs

end Scratchpad.Run
