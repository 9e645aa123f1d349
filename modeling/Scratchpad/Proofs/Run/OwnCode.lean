import Scratchpad.Proofs.Run.Deeds
import Scratchpad.Proofs.Run.Delivery
import Scratchpad.Proofs.Run.Reports

/-!
# A run executes its own code

All runs write the same two files, and many may be on their way at once: one may wait to write, and another
to start its program, while a later run has the slot. Still, whatever program a run starts while it has the
slot finds the preamble and the composed source of that very run. Only the run that has the slot writes,
and a run that has lost the slot never has it again. So the files that a run with the slot has written are
the last ones that were written.

## Main definitions

* `Prepared`: what is right of the files before a leg, if the run has the slot.
* `OnWay`, `AllPrepared`: the files are right for a run on its way, and for every run at its stage.
* `Minds`, `ComesToWrite`: a run leaves the files alone unless it has the slot, and looks before it writes.
* `Proceeds`: what holds of a run wherever it is on its way.

## Main statements

* `OnWay.go`: every leg leaves the files right for the next one.
* `comesToWrite_go`: a run that has been told to end does not come to write.
* `Underway.minds`: whoever is on its way writes only if it has the slot.
* `AllPrepared.resume`, `allPrepared_after`: the files are right for every run after any history.
* `executes_own_code`: what is written and started in a history.
-/

namespace Scratchpad.Run

open Log Sandbox Supervision

variable {workshop : Workshop} {req : Request} {run : Nat} {job : Job} {w w' : Supervision}

/-! ## What is prepared -/

/-- The leg that is ahead of a job at a stage, as long as there is anything to prepare. -/
def Stage.ahead : Stage → Leg
  | .fresh source => .begin source
  | .writing part entry => .reach part entry
  | .spawning => .reachSpawn
  | _ => .rest

/-- What is right of the files before a leg. What other runs do does not matter once the slot is lost. -/
def Prepared (workshop : Workshop) (req : Request) (s : Script) (isActive : Prop) : Leg → Prop
  | .begin source => source = req.text
  | .reach part entry | .write part entry =>
    composed workshop req.matchLines req.text = .ok entry ∧
      (isActive → part = .entry → s.file? preambleFile = some preamble)
  | .reachSpawn | .spawn =>
    ∃ entry, composed workshop req.matchLines req.text = .ok entry ∧
      (isActive → s.file? workshop.settings.entryFile = some entry ∧
        (workshop.settings.entryFile ≠ preambleFile → s.file? preambleFile = some preamble))
  | _ => True

/-- What is right stays right while the files stay, and when the slot is lost. -/
theorem Prepared.mono {s s' : Script} {isActive isActive' : Prop} {leg : Leg}
    (h : Prepared workshop req s isActive leg) (hactive : isActive' → isActive)
    (hfiles : isActive' → s'.files = s.files) : Prepared workshop req s' isActive' leg := by
  have hfile : isActive' → ∀ path, s'.file? path = s.file? path := fun ha path => by
    rw [Script.file?, hfiles ha, Script.file?]
  cases leg with
  | begin source => exact h
  | reach part entry | write part entry =>
    refine ⟨h.1, fun ha hpart => ?_⟩
    rw [hfile ha]
    exact h.2 (hactive ha) hpart
  | reachSpawn | spawn =>
    obtain ⟨entry, hcomposed, hright⟩ := h
    refine ⟨entry, hcomposed, fun ha => ?_⟩
    rw [hfile ha, hfile ha]
    exact hright (hactive ha)
  | _ => trivial

/-- The files are right for every run at its stage. -/
def AllPrepared (workshop : Workshop) (reqs : List Request) (w : Supervision) : Prop :=
  ∀ run job, w.jobs[run]? = some job → ∃ req, reqs[run]? = some req ∧ job.order = req.order ∧
    Prepared workshop req w.sandbox (w.slot.active = some run) job.stage.ahead

/-! ## What a run prepares on its way -/

/-- The files are right for a run on its way. A run that rests is at a stage. -/
def OnWay (workshop : Workshop) (req : Request) (run : Nat) : Leg × Supervision → Prop
  | (.rest, w) => ∀ job, w.jobs[run]? = some job →
    Prepared workshop req w.sandbox (w.slot.active = some run) job.stage.ahead
  | (leg, w) => Prepared workshop req w.sandbox (w.slot.active = some run) leg

/-- A run that rests at a stage is prepared for what is ahead of it. -/
theorem OnWay.of_atStage {stage : Stage}
    (h : Prepared workshop req w.sandbox (w.slot.active = some run) stage.ahead) :
    OnWay workshop req run (.rest, w.atStage run stage) := by
  intro job hjob
  rw [stage_of_atStage hjob]
  exact h

/-- A run that is over has nothing to prepare. -/
theorem OnWay.of_fail (w : Supervision) (message : String) :
    OnWay workshop req run (.rest, w.fail run job message) := of_atStage trivial

theorem OnWay.of_abandon (w : Supervision) (p : Nat) :
    OnWay workshop req run (.rest, w.abandon run p) := of_atStage trivial

theorem OnWay.reach {part : Part} {entry : String}
    (h : Prepared workshop req w.sandbox (w.slot.active = some run) (.reach part entry)) :
    OnWay workshop req run (go workshop run job w (.reach part entry)) := by
  rw [go]
  split
  · exact of_atStage trivial
  · split
    · exact of_atStage (h.mono id fun _ => Script.files_eq_of_record (Script.record_await ..))
    · exact h

/-- **Every leg leaves the files right for the next one.** -/
theorem OnWay.go (horder : job.matchLines = req.matchLines) {leg : Leg}
    (h : OnWay workshop req run (leg, w)) : OnWay workshop req run (go workshop run job w leg) := by
  cases leg with
  | begin source =>
    obtain rfl : source = req.text := h
    rw [Supervision.go, horder]
    split
    · exact .of_fail w _
    · rename_i entry hcomposed
      exact ⟨hcomposed, fun _ hpart => by cases hpart⟩
  | reach part entry => exact .reach h
  | write part entry =>
    obtain ⟨hcomposed, hright⟩ := h
    rw [Supervision.go]
    split
    · exact .of_fail { w with sandbox := _ } _
    · rename_i sandbox hwrite
      have hfile := Script.file?_of_write hwrite
      cases part with
      | preamble =>
        refine ⟨hcomposed, fun _ _ => ?_⟩
        rw [hfile, Part.path, if_pos rfl, Part.contents]
      | entry =>
        refine ⟨entry, hcomposed, fun ha => ⟨?_, fun hne => ?_⟩⟩
        · rw [hfile, Part.path, if_pos rfl, Part.contents]
        · rw [hfile, Part.path, if_neg (Ne.symm hne)]
          exact hright ha rfl
  | reachSpawn =>
    rw [Supervision.go]
    split
    · exact of_atStage (Prepared.mono h id fun _ => Script.files_eq_of_record (Script.record_await ..))
    · exact h
  | spawn =>
    rw [Supervision.go]
    dsimp only
    split
    · exact .of_fail { w with sandbox := _ } _
    · split
      · exact .of_abandon { w with sandbox := _ } _
      · trivial
  | read p reader batcher nextFlush =>
    rw [Supervision.go]
    split
    · exact .of_abandon w p
    · dsimp only
      split
      · exact of_atStage trivial
      · trivial
  | awaitExit p reader batcher =>
    rw [Supervision.go]
    split
    · exact of_atStage trivial
    · trivial
  | close p reader batcher =>
    rw [Supervision.go, close]
    dsimp only
    split
    · exact of_atStage trivial
    · exact .of_fail { Supervision.deliverBatch _ run job _ with sandbox := _ } _
    · exact .of_fail { Supervision.deliverBatch _ run job _ with sandbox := _ } _
  | rest => exact h

theorem onWay_depart (hjob : w.jobs[run]? = some job)
    (h : Prepared workshop req w.sandbox (w.slot.active = some run) job.stage.ahead) :
    OnWay workshop req run (depart run job w) := by
  have hstay : OnWay workshop req run (.rest, w) := by
    intro job' hjob'
    rwa [← Option.some.inj (hjob.symm.trans hjob')]
  rw [depart]
  split
  · rename_i source hs
    rwa [hs] at h
  · rename_i part entry hs
    rw [hs] at h
    split
    · exact OnWay.of_atStage trivial
    · split
      · exact hstay
      · exact h
  · rename_i hs
    rw [hs] at h
    split
    · exact hstay
    · exact h
  · trivial
  · split
    · exact .of_abandon { w with sandbox := _ } _
    · split
      · exact hstay
      · trivial
  · exact hstay

/-! ## What a run may do on its way -/

/-- A run on its way gives the slot to nobody, and writes only if it has the slot. -/
structure Minds (run : Nat) (w w' : Supervision) : Prop where
  active : ∀ r, w'.slot.active = some r → w.slot.active = some r
  files : w.slot.active ≠ some run → w'.sandbox.files = w.sandbox.files

theorem Minds.trans {w'' : Supervision} (h : Minds run w w') (h' : Minds run w' w'') : Minds run w w'' where
  active r hr := h.active r (h'.active r hr)
  files hne := (h'.files fun ha => hne (h.active run ha)).trans (h.files hne)

/-- A run that comes to write has not been told to end. -/
def ComesToWrite (run : Nat) : Leg × Supervision → Prop
  | (.write _ _, w) => w.slot.isCancelled run = false
  | _ => True

theorem comesToWrite_depart (w : Supervision) : ComesToWrite run (depart run job w) := by
  rw [depart]
  split
  · trivial
  · split
    · trivial
    · rename_i hc
      rw [Bool.not_eq_true] at hc
      split
      · trivial
      · exact hc
  · split <;> trivial
  · trivial
  · split
    · trivial
    · split <;> trivial
  · trivial

/-- **A run that has been told to end does not come to write.** It looks before it does. -/
theorem comesToWrite_go (w : Supervision) (leg : Leg) : ComesToWrite run (go workshop run job w leg) := by
  cases leg with
  | begin source =>
    rw [go]
    split <;> trivial
  | reach part entry =>
    rw [go]
    split
    · trivial
    · rename_i hc
      rw [Bool.not_eq_true] at hc
      split
      · trivial
      · exact hc
  | write part entry =>
    rw [go]
    split
    · trivial
    · cases part <;> trivial
  | reachSpawn =>
    rw [go]
    split <;> trivial
  | spawn =>
    rw [go]
    dsimp only
    split
    · trivial
    · split <;> trivial
  | read p reader batcher nextFlush =>
    rw [go]
    split
    · trivial
    · dsimp only
      split <;> trivial
  | awaitExit p reader batcher =>
    rw [go]
    split <;> trivial
  | close p reader batcher => trivial
  | rest => trivial

section Minds

variable {printed : Nat → List String} {woken : List Nat}

/-- The slot of a run on its way is coherent, and knows the run by its generation. -/
theorem Underway.exists_generation {leg : Leg} (h : Underway printed woken run job (leg, w)) :
    w.slot.Coherent ∧ (w.slot.handles.map (·.generation))[run]? = some job.generation := by
  obtain ⟨v, stage, ⟨log, helse, hjob, -⟩, -⟩ := h
  obtain ⟨handle, hhandle, hgen⟩ := helse.world.exists_handle hjob
  refine ⟨helse.world.coherent, ?_⟩
  rw [List.getElem?_map, hhandle, Option.map_some, hgen]

/-- A run that writes has the slot. -/
theorem Underway.active_of_write {part : Part} {entry : String}
    (h : Underway printed woken run job (.write part entry, w))
    (hc : ComesToWrite run (.write part entry, w)) : w.slot.active = some run := by
  obtain ⟨v, stage, ⟨log, -, -, rfl⟩, hv⟩ := h
  have hphase := (View.Unspawned.silent hv hc).1
  rw [← isSome_phase_view w log run, hphase]
  rfl

/-- **Whoever is on its way writes only if it has the slot**, and gives the slot to nobody. -/
theorem Underway.minds {leg : Leg} (h : Underway printed woken run job (leg, w))
    (hc : ComesToWrite run (leg, w)) : Minds run w (Supervision.go workshop run job w leg).2 := by
  obtain ⟨hs, hgen⟩ := h.exists_generation
  constructor
  · intro r hr
    have hhears : Hears run job.generation w.slot (Supervision.go workshop run job w leg).2.slot := .go w leg
    obtain ⟨reports, hreports, hslot⟩ := hhears hgen
    rw [hslot] at hr
    exact hs.active_of_reports hreports hr
  · intro hne
    have hrecord : (Supervision.go workshop run job w leg).2.sandbox.record = _ := record_go w leg
    refine (congrArg Prod.fst hrecord).trans ?_
    cases leg with
    | write part entry => exact absurd (h.active_of_write hc) hne
    | spawn =>
      rw [Leg.deed?]
      cases (w.sandbox.spawn run (job.launch workshop)).1.toOption <;> rfl
    | _ => rfl

theorem minds_depart (w : Supervision) : Minds run w (depart run job w).2 where
  active r hr := by
    rw [depart] at hr
    split at hr
    · exact hr
    · split at hr
      · exact hr
      · split at hr <;> exact hr
    · split at hr <;> exact hr
    · exact hr
    · split at hr
      · exact hr
      · split at hr <;> exact hr
    · exact hr
  files _ := Script.files_eq_of_record (record_depart w)

/-- What holds of a run wherever it is on its way. -/
structure Proceeds (printed : Nat → List String) (woken : List Nat) (workshop : Workshop) (req : Request)
    (run : Nat) (job : Job) (start : Supervision) (position : Leg × Supervision) : Prop where
  underway : Underway printed woken run job position
  onWay : OnWay workshop req run position
  comesToWrite : ComesToWrite run position
  minds : Minds run start position.2

namespace Proceeds

variable {start : Supervision}

theorem depart (hsound : Sound printed (run :: woken) w) (hjob : w.jobs[run]? = some job)
    (h : Prepared workshop req w.sandbox (w.slot.active = some run) job.stage.ahead) :
    Proceeds printed woken workshop req run job w (Supervision.depart run job w) := by
  obtain ⟨v, hsees, hfits⟩ := hsound.exists_sees hjob woken
    fun r hr hmem => (List.mem_cons.mp hmem).resolve_left hr
  exact ⟨underway_depart hsees hfits, onWay_depart hjob h, comesToWrite_depart w, minds_depart w⟩

theorem go (horder : job.matchLines = req.matchLines) {leg : Leg}
    (h : Proceeds printed woken workshop req run job start (leg, w)) :
    Proceeds printed woken workshop req run job start (Supervision.go workshop run job w leg) :=
  ⟨h.underway.go workshop, h.onWay.go horder, comesToWrite_go w leg,
    h.minds.trans (h.underway.minds h.comesToWrite)⟩

end Proceeds

end Minds

/-! ## Everything is prepared -/

namespace AllPrepared

variable {printed : Nat → List String} {woken : List Nat} {reqs : List Request}

/-- What moves no job, gives the slot to nobody and writes nothing leaves everything prepared. -/
theorem of_eq (h : AllPrepared workshop reqs w) (hjobs : w'.jobs = w.jobs)
    (hactive : ∀ r, w'.slot.active = some r → w.slot.active = some r)
    (hfiles : w'.sandbox.files = w.sandbox.files) : AllPrepared workshop reqs w' := by
  intro r job hjob
  rw [hjobs] at hjob
  obtain ⟨req, hreq, horder, hprepared⟩ := h r job hjob
  exact ⟨req, hreq, horder, hprepared.mono (hactive r) fun _ => hfiles⟩

/-- **A job that goes on leaves everything prepared**, for itself and for the others. -/
theorem resume (h : AllPrepared workshop reqs w) (hsound : Sound printed (run :: woken) w) :
    AllPrepared workshop reqs (Supervision.resume workshop w run) := by
  cases hjob : w.jobs[run]? with
  | none =>
    rw [Supervision.resume, hjob]
    exact h
  | some job =>
    obtain ⟨req, hreq, horder, hprepared⟩ := h run job hjob
    have hproceeds : Proceeds printed woken workshop req run job w
        (.rest, Supervision.resume workshop w run) :=
      resume_induction hjob (.depart hsound hjob hprepared) fun leg w' hw' =>
        hw'.go (congrArg Prod.fst horder)
    have hspares : Spares run w (Supervision.resume workshop w run) := .resume w run
    intro r job' hjob'
    by_cases hr : r = run
    · subst hr
      have horder' := congrArg (·[r]?) hspares.map_order
      simp only [List.getElem?_map, hjob, hjob', Option.map_some, Option.some.injEq] at horder'
      exact ⟨req, hreq, horder'.trans horder, hproceeds.onWay job' hjob'⟩
    · -- another run
      rw [hspares.jobs_of_ne hr] at hjob'
      obtain ⟨req', hreq', horder', hprepared'⟩ := h r job' hjob'
      refine ⟨req', hreq', horder', hprepared'.mono (hproceeds.minds.active r) fun ha => ?_⟩
      apply hproceeds.minds.files
      intro ha'
      have heq := (hproceeds.minds.active r ha).symm.trans ha'
      exact hr (Option.some.inj heq)

/-- Jobs that go on one after another leave everything prepared. -/
theorem foldl_resume {before after : List Nat} (h : AllPrepared workshop reqs w)
    (hsound : Sound printed (before ++ after) w) :
    AllPrepared workshop reqs (before.foldl (Supervision.resume workshop) w) := by
  induction before generalizing w with
  | nil => exact h
  | cons run before ih => exact ih (h.resume hsound) hsound.resume

theorem settle (h : AllPrepared workshop reqs w) (hsound : Sound printed w.ready w) :
    AllPrepared workshop reqs (Supervision.settle workshop w) := by
  have hready : Sound printed (w.ready ++ []) { w with ready := [] } := by
    rw [List.append_nil]
    exact hsound.setOff
  have hsame : AllPrepared workshop reqs { w with ready := [] } := h.of_eq rfl (fun _ => id) rfl
  exact hsame.foldl_resume hready

theorem elapseJob (h : AllPrepared workshop reqs w) (run time : Nat) :
    AllPrepared workshop reqs (Supervision.elapseJob workshop w run time) := by
  rcases elapseJob_cases workshop w run time with
    heq | ⟨job, p, reader, batcher, nextFlush, next, hjob, hs, heq⟩
  · rw [heq]
    exact h
  · have hactive : (w.deliverBatch run job batcher.tick.1).slot.active = w.slot.active := by
      cases batcher.tick.1 with
      | none => rfl
      | some entries =>
        simp only [deliverBatch, Slot.deliver]
        split <;> rfl
    rw [heq]
    intro r job' hjob'
    simp only [atStage, jobs_deliverBatch, List.getElem?_modify] at hjob'
    obtain ⟨job'', hjob'', rfl⟩ := Option.map_eq_some_iff.mp hjob'
    obtain ⟨req, hreq, horder, hprepared⟩ := h r job'' hjob''
    by_cases hr : run = r
    · -- the run itself
      simp only [hr, if_true]
      exact ⟨req, hreq, horder, trivial⟩
    · simp only [hr, if_false]
      refine ⟨req, hreq, horder, hprepared.mono (fun ha => hactive ▸ ha) fun _ => ?_⟩
      exact congrArg Script.files (sandbox_deliverBatch w _)

theorem elapse (h : AllPrepared workshop reqs w) (ms : Nat) :
    AllPrepared workshop reqs (Supervision.elapse workshop w ms) :=
  elapse_induction h (fun _ run hw' => hw'.elapseJob run _) fun _ _ hw' => hw'.of_eq rfl (fun _ => id) rfl

/-- What was asked for earlier is still asked for. -/
theorem ask_more (h : AllPrepared workshop reqs w) (more : List Request) :
    AllPrepared workshop (reqs ++ more) w := by
  intro r job hjob
  obtain ⟨req, hreq, hrest⟩ := h r job hjob
  exact ⟨req, List.getElem?_append_left (List.getElem?_eq_some_iff.mp hreq).1 ▸ hreq, hrest⟩

/-- A run that is started takes the slot, and has everything to prepare. -/
theorem start (h : AllPrepared workshop reqs w) (hlength : reqs.length = w.jobs.length)
    (hgen : w.jobs.length = w.slot.handles.length) (source text : String) (matchLines : Bool)
    (environment : Environment) :
    AllPrepared workshop (reqs ++ [⟨source, text, matchLines, environment⟩])
      (w.start source text matchLines environment) := by
  have hactive : (w.start source text matchLines environment).slot.active = some w.jobs.length := by
    rw [slot_start, Slot.active_start, hgen]
  intro r job hjob
  simp only [Supervision.start, jobs_wakeActive, List.getElem?_append, List.getElem?_singleton] at hjob
  split at hjob
  · rename_i hr
    obtain ⟨req, hreq, horder, hprepared⟩ := h.ask_more [⟨source, text, matchLines, environment⟩] r job hjob
    refine ⟨req, hreq, horder, hprepared.mono (fun ha => ?_) fun _ => ?_⟩
    · have heq := Option.some.inj (hactive.symm.trans ha)
      omega
    · rw [sandbox_start]
  · split at hjob
    · rename_i hr hlast
      obtain rfl : r = w.jobs.length := by omega
      obtain rfl := Option.some.inj hjob
      exact ⟨⟨source, text, matchLines, environment⟩, by simp [← hlength], rfl, rfl⟩
    · cases hjob

/-- Nothing that is prepared is lost in a quiet turn. -/
theorem quiet (h : AllPrepared workshop reqs w) (hs : w.slot.Coherent) {t : Turn} (ht : t.isQuiet = true) :
    AllPrepared workshop reqs (turn workshop w t) := by
  obtain ⟨hjobs, hrecord, hslot⟩ := quiet_turn workshop ht w
  refine h.of_eq hjobs (fun r hr => ?_) (Script.files_eq_of_record hrecord)
  rw [hslot] at hr
  cases hm : t.move? with
  | none => rwa [hm] at hr
  | some m =>
    rw [hm] at hr
    exact hs.active_of_move (Turn.source?_of_isQuiet ht hm) hr

end AllPrepared

/-- **After any history everything is prepared** for every run at its stage. -/
theorem allPrepared_after (workshop : Workshop) (turns : List Turn) :
    AllPrepared workshop (requests turns) (after workshop turns) := by
  induction turns using List.reverseRecOn with
  | nil =>
    intro r job hjob
    simp [after, initial] at hjob
  | append_singleton turns t ih =>
    have hsound := sound_after workshop turns
    obtain ⟨log, hworld, -⟩ := id hsound
    rw [requests_append_singleton, after_append_singleton]
    rcases t.kinds with ht | rfl | ⟨ms, rfl⟩ | ⟨source, text, matchLines, environment, rfl⟩
    · exact (ih.quiet hworld.coherent ht).ask_more _
    · exact (ih.settle hsound).ask_more _
    · exact ((ih.settle hsound).elapse ms).ask_more _
    · have hlength := length_requests workshop turns
      exact ih.start hlength hworld.length_jobs source text matchLines environment

/-! ## What is written and started -/

/-- At every stride of a history a run proceeds as it was asked to. -/
theorem proceeds_of_mem_itinerary {turns : List Turn} {t : Stride} (ht : t ∈ itinerary workshop turns) :
    ∃ printed woken req start, (requests turns)[t.run]? = some req ∧ t.job.order = req.order ∧
      Proceeds printed woken workshop req t.run t.job start (t.leg, t.world) := by
  obtain ⟨earlier, later, before, after, rfl, hsound, ht'⟩ := exists_of_mem_itinerary ht
  have hsame : AllPrepared workshop (requests earlier)
      { Supervision.after workshop earlier with ready := [] } :=
    (allPrepared_after workshop earlier).of_eq rfl (fun _ => id) rfl
  have hprepared := hsame.foldl_resume hsound
  have hsound' : Sound (printed workshop earlier) (t.run :: after)
      (before.foldl (resume workshop) { Supervision.after workshop earlier with ready := [] }) :=
    hsound.foldl_resume
  obtain ⟨hjob, -, -⟩ := stride_induction (P := fun _ => True) ht' (fun _ => trivial) fun _ _ h => h
  obtain ⟨req, hreq, horder, hahead⟩ := hprepared t.run t.job hjob
  have hreq' : (requests (earlier ++ later))[t.run]? = some req := by
    rw [requests_append, List.getElem?_append_left (List.getElem?_eq_some_iff.mp hreq).1, hreq]
  have hproceeds := stride_induction ht' (fun _ => Proceeds.depart hsound' hjob hahead)
    fun leg w' hw' => hw'.go (congrArg Prod.fst horder)
  exact ⟨_, _, req, _, hreq', horder, hproceeds.2.2⟩

/-- The text that runs a source is composed of its code. -/
theorem exists_code_of_composed {matchLines : Bool} {source entry : String}
    (h : composed workshop matchLines source = .ok entry) :
    ∃ code, workshop.compiler (if matchLines then (Marking.ofSource source).code else source) = .ok code ∧
      entry = composeEntry code := by
  rw [composed] at h
  cases hcode : workshop.compiler (if matchLines then (Marking.ofSource source).code else source) with
  | error failure => simp [hcode, Except.map] at h
  | ok code =>
    refine ⟨code, rfl, ?_⟩
    simpa [hcode, Except.map, eq_comm] using h

/-- **A run executes its own code.** The files and the launches of a history are those that the deeds of its
itinerary leave behind. Whenever a file is written, the run that writes it has not been told to end.
Whenever a program is started, it is started with what its run was asked for. If the run has the slot, the
file that is run holds the composed code of the run's own source, which is marked if that was asked for,
and the preamble stands beside it. -/
theorem executes_own_code (workshop : Workshop) (turns : List Turn) :
    (after workshop turns).sandbox.record =
      ((itinerary workshop turns).filterMap (Stride.deed? workshop)).foldl Deed.apply ([], []) ∧
    ∀ t ∈ itinerary workshop turns,
      (∀ path contents, t.deed? workshop = some (.write path contents) →
        t.world.slot.isCancelled t.run = false) ∧
      ∀ launch, t.deed? workshop = some (.start launch) →
        ∃ req, (requests turns)[t.run]? = some req ∧
          launch = ⟨workshop.settings.program, [workshop.settings.entryFile], req.environment⟩ ∧
          (t.world.slot.active = some t.run →
            ∃ code,
              workshop.compiler (if req.matchLines then (Marking.ofSource req.text).code else req.text) =
                .ok code ∧
              t.world.sandbox.file? workshop.settings.entryFile = some (composeEntry code) ∧
              (workshop.settings.entryFile ≠ preambleFile →
                t.world.sandbox.file? preambleFile = some preamble)) := by
  refine ⟨record_after workshop turns, fun t ht => ?_⟩
  obtain ⟨printed, woken, req, start, hreq, horder, hproceeds⟩ := proceeds_of_mem_itinerary ht
  obtain ⟨run, job, leg, world⟩ := t
  dsimp only at hreq horder hproceeds ⊢
  constructor
  · intro path contents hdeed
    cases leg with
    | write part entry => exact hproceeds.comesToWrite
    | spawn => simp [Stride.deed?, Leg.deed?] at hdeed
    | _ => cases hdeed
  · intro launch hdeed
    cases leg with
    | spawn =>
      obtain ⟨-, -, hlaunch⟩ := Option.map_eq_some_iff.mp hdeed
      obtain rfl : job.launch workshop = launch := by simpa using hlaunch
      obtain ⟨entry, hcomposed, hright⟩ : Prepared workshop req world.sandbox
        (world.slot.active = some run) .spawn := hproceeds.onWay
      obtain ⟨code, hcode, rfl⟩ := exists_code_of_composed hcomposed
      have henvironment : job.environment = req.environment := congrArg Prod.snd horder
      refine ⟨req, hreq, by rw [Job.launch, henvironment], fun ha => ?_⟩
      exact ⟨code, hcode, hright ha⟩
    | write part entry => simp [Stride.deed?, Leg.deed?] at hdeed
    | _ => cases hdeed

/-- Two runs have written their files and wait to start their programs. The first one has lost the slot, so
its program is started beside the code of the other. -/
theorem executes_own_code_superseded :
    let workshop : Workshop := ⟨⟨50, 2, "node", "main.mjs"⟩, fun source => .ok source⟩
    let turns : List Turn :=
      [.act (.hold .spawn), .act (.start "a" "x" false .empty), .settle,
        .act (.start "b" "y" false .empty), .settle, .act (.release .spawn), .settle]
    let launch : Launch := ⟨"node", ["main.mjs"], .empty⟩
    (itinerary workshop turns).filterMap (Stride.deed? workshop) =
        [.write preambleFile preamble, .write "main.mjs" (composeEntry "x"),
          .write preambleFile preamble, .write "main.mjs" (composeEntry "y"), .start launch,
          .start launch] ∧
      (∀ t ∈ itinerary workshop turns, ∀ path contents,
        t.deed? workshop = some (.write path contents) → t.world.slot.isCancelled t.run = false) ∧
      (∃ t ∈ itinerary workshop turns, t.run = 0 ∧ t.deed? workshop = some (.start launch) ∧
        t.world.slot.isCancelled 0 = true ∧
        t.world.sandbox.file? "main.mjs" = some (composeEntry "y")) ∧
      ∃ t ∈ itinerary workshop turns, t.run = 1 ∧ t.deed? workshop = some (.start launch) ∧
        ∃ req code, (requests turns)[1]? = some req ∧ workshop.compiler req.text = .ok code ∧
          t.world.sandbox.file? "main.mjs" = some (composeEntry code) ∧
          t.world.sandbox.file? preambleFile = some preamble := by
  intro workshop turns launch
  have hfirst : (itinerary workshop turns)[20]?.map (fun t => (t.run, t.deed? workshop,
      t.world.slot.isCancelled 0, t.world.sandbox.file? "main.mjs")) =
        some (0, some (.start launch), true, some (composeEntry "y")) := by decide +kernel
  have hsecond : (itinerary workshop turns)[30]?.map (fun t => (t.run, t.deed? workshop,
      t.world.slot.active)) = some (1, some (.start launch), some 1) := by decide +kernel
  refine ⟨by decide +kernel, fun t ht => ((executes_own_code workshop turns).2 t ht).1, ?_, ?_⟩
  · obtain ⟨t, ht, hfacts⟩ := Option.map_eq_some_iff.mp hfirst
    simp only [Prod.mk.injEq] at hfacts
    exact ⟨t, List.mem_of_getElem? ht, hfacts⟩
  · obtain ⟨t, ht, hfacts⟩ := Option.map_eq_some_iff.mp hsecond
    simp only [Prod.mk.injEq] at hfacts
    obtain ⟨hrun, hdeed, hactive⟩ := hfacts
    have hmem : t ∈ itinerary workshop turns := List.mem_of_getElem? ht
    obtain ⟨req, hreq, -, hright⟩ := ((executes_own_code workshop turns).2 t hmem).2 launch hdeed
    obtain ⟨code, hcode, hentry, hpreamble⟩ := hright (by rw [hactive, hrun])
    rw [hrun] at hreq
    refine ⟨t, hmem, hrun, hdeed, req, code, hreq, ?_, hentry, hpreamble (by decide)⟩
    obtain rfl : (⟨"b", "y", false, .empty⟩ : Request) = req := Option.some.inj hreq
    exact hcode

end Scratchpad.Run
