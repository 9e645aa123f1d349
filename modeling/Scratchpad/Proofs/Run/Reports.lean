import Scratchpad.Proofs.Run.Itinerary
import Scratchpad.Proofs.Slot.Order

/-!
# What runs report

Whatever a job does on its way, the slot learns of it by reports of the job's own run: it delivers entries,
it says that its program runs, and it says how it ended, which is never that it was killed. The owner of
the slot does the rest. So the slot of any history is one that honest moves lead to, and while nobody has
the slot no job changes it.

## Main definitions

* `Reported`: a step in which the slot hears of nothing but reports of runs.

## Main statements

* `Reported.resume`, `Reported.settle`, `Reported.elapse`: jobs that go on, and time, report and no more.
* `Slot.Coherent.foldl_reports_of_idle`: reports are nothing to a slot that nobody has.
* `exists_honest_moves`: the slot of any history is one that honest moves lead to.
-/

namespace Scratchpad.Run

open Log Sandbox Supervision Slot

/-! ## Reports -/

/-- A report of a run. No run reports to have been killed. -/
def Slot.Move.IsReportOf (run : Nat) (m : Move) : Prop := m.reporter? = some run ∧ m.IsHonest

theorem Slot.Move.IsReportOf.source?_eq_none {run : Nat} {m : Move} (h : m.IsReportOf run) :
    m.source? = none := Move.source?_of_reporter? (by rw [h.1]; rfl)

/-- Reports change no generation of a handle. -/
theorem Slot.map_generation_reports {run : Nat} {reports : List Move}
    (hreports : ∀ m ∈ reports, m.IsReportOf run) (s : Slot) :
    (reports.foldl Slot.move s).handles.map (·.generation) = s.handles.map (·.generation) := by
  induction reports generalizing s with
  | nil => rfl
  | cons m reports ih =>
    obtain ⟨hm, hrest⟩ := List.forall_mem_cons.mp hreports
    rw [List.foldl_cons, ih hrest (s.move m)]
    exact map_generation_move s hm.source?_eq_none

/-- Nobody gets the slot by reports. -/
theorem Slot.Coherent.active_of_reports {s : Slot} (hs : s.Coherent) {run r : Nat} {reports : List Move}
    (hreports : ∀ m ∈ reports, m.IsReportOf run) (ha : (reports.foldl Slot.move s).active = some r) :
    s.active = some r := by
  induction reports generalizing s with
  | nil => exact ha
  | cons m reports ih =>
    obtain ⟨hm, hrest⟩ := List.forall_mem_cons.mp hreports
    exact hs.active_of_move hm.source?_eq_none (ih (hs.move m) hrest ha)

/-- Reports are nothing to a slot that nobody has. -/
theorem Slot.Coherent.foldl_reports_of_idle {s : Slot} (hs : s.Coherent) (hidle : s.active = none)
    {reports : List Move} (hreports : ∀ m ∈ reports, m.reporter?.isSome = true) :
    reports.foldl Slot.move s = s := by
  induction reports with
  | nil => rfl
  | cons m reports ih =>
    obtain ⟨hm, hrest⟩ := List.forall_mem_cons.mp hreports
    obtain ⟨run, hrun⟩ := Option.isSome_iff_exists.mp hm
    rw [List.foldl_cons, hs.move_of_reporter? hrun (by simp [hidle])]
    exact ih hrest

/-- The slot hears reports of the run whose handle has a generation. -/
def Hears (run generation : Nat) (s s' : Slot) : Prop :=
  (s.handles.map (·.generation))[run]? = some generation →
    ∃ reports : List Move, (∀ m ∈ reports, m.IsReportOf run) ∧ s' = reports.foldl Slot.move s

namespace Hears

variable {workshop : Workshop} {run generation : Nat} {job : Job} {s s' s'' : Slot} {w : Supervision}

theorem refl (s : Slot) : Hears run generation s s := fun _ => ⟨[], nofun, rfl⟩

theorem trans (h : Hears run generation s s') (h' : Hears run generation s' s'') :
    Hears run generation s s'' := by
  intro hgen
  obtain ⟨reports, hreports, rfl⟩ := h hgen
  obtain ⟨more, hmore, rfl⟩ := h' (by rw [map_generation_reports hreports, hgen])
  exact ⟨reports ++ more, List.forall_mem_append.mpr ⟨hreports, hmore⟩, by rw [List.foldl_append]⟩

/-- One report. The slot knows who reports by the generation. -/
theorem of_move {m : Move} (hm : m.IsReportOf run)
    (hs : ∀ h, s.handles[run]? = some h → h.generation = generation → s' = s.move m) :
    Hears run generation s s' := by
  intro hgen
  rw [List.getElem?_map] at hgen
  obtain ⟨h, hh, hgen⟩ := Option.map_eq_some_iff.mp hgen
  refine ⟨[m], ?_, hs h hh hgen⟩
  intro m' hm'
  rwa [List.mem_singleton.mp hm']

theorem deliver (s : Slot) (entries : List Entry) :
    Hears run generation s (s.deliver generation run entries) :=
  of_move (m := .deliver run entries) ⟨rfl, trivial⟩ fun h hh hgen => by simp [Slot.move, hh, hgen]

theorem setRunning (s : Slot) : Hears run generation s (s.setRunning generation) :=
  of_move (m := .setRunning run) ⟨rfl, trivial⟩ fun h hh hgen => by simp [Slot.move, hh, hgen]

theorem finish (s : Slot) {outcome : Outcome} (honest : outcome ≠ .killed) :
    Hears run generation s (s.finish generation run outcome) :=
  of_move (m := .finish run outcome) ⟨rfl, honest⟩ fun h hh hgen => by simp [Slot.move, hh, hgen]

/-! ### What a job reports -/

theorem fail (w : Supervision) (message : String) :
    Hears run job.generation w.slot (w.fail run job message).slot :=
  (deliver w.slot [Entry.ofFailure message]).trans (finish _ nofun)

theorem deliverBatch (w : Supervision) (batch : Option (List Entry)) :
    Hears run job.generation w.slot (w.deliverBatch run job batch).slot := by
  cases batch with
  | none => exact refl w.slot
  | some entries => exact deliver w.slot entries

theorem readChunks (w : Supervision) (reader : LineReader) (batcher : Batcher Entry)
    (chunks : List String) :
    Hears run job.generation w.slot (w.readChunks run job reader batcher chunks).1.slot := by
  induction chunks generalizing w reader batcher with
  | nil => exact refl w.slot
  | cons chunk chunks ih => exact (deliverBatch w _).trans (ih _ _ _)

theorem flushDue (w : Supervision) (batcher : Batcher Entry) (nextFlush : Nat) :
    Hears run job.generation w.slot
      (Supervision.flushDue workshop w run job batcher nextFlush).1.slot := by
  rw [Supervision.flushDue]
  split
  · exact deliverBatch w _
  · exact refl w.slot

theorem close (w : Supervision) (p : Nat) (reader : LineReader) (batcher : Batcher Entry) :
    Hears run job.generation w.slot (w.close run job p reader batcher).slot := by
  rw [Supervision.close]
  dsimp only
  have hdelivered : Hears run job.generation w.slot
      ((w.deliverBatch run job (batcher.push reader.flush.1.toList).1).deliverBatch run job
        (batcher.push reader.flush.1.toList).2.drain.1).slot :=
    (deliverBatch w _).trans (deliverBatch _ _)
  split
  · exact hdelivered.trans (finish _ (by simp))
  · exact hdelivered.trans (fail { Supervision.deliverBatch _ run job _ with sandbox := _ } _)
  · exact hdelivered.trans (fail { Supervision.deliverBatch _ run job _ with sandbox := _ } _)

/-- **On every leg a job reports and no more.** -/
theorem go (w : Supervision) (leg : Leg) :
    Hears run job.generation w.slot (Supervision.go workshop run job w leg).2.slot := by
  cases leg with
  | begin source =>
    rw [Supervision.go]
    split
    · exact fail w _
    · exact refl w.slot
  | reach part entry =>
    rw [Supervision.go]
    split
    · exact refl w.slot
    · split <;> exact refl w.slot
  | write part entry =>
    rw [Supervision.go]
    split
    · exact fail { w with sandbox := _ } _
    · exact refl w.slot
  | reachSpawn =>
    rw [Supervision.go]
    split <;> exact refl w.slot
  | spawn =>
    rw [Supervision.go]
    dsimp only
    split
    · exact fail { w with sandbox := _ } _
    · split
      · exact refl w.slot
      · exact setRunning w.slot
  | read p reader batcher nextFlush =>
    rw [Supervision.go]
    split
    · exact refl w.slot
    · have hdue : Hears run job.generation w.slot
          (Supervision.flushDue workshop w run job batcher nextFlush).1.slot := flushDue w batcher nextFlush
      generalize Supervision.flushDue workshop w run job batcher nextFlush = due at hdue ⊢
      have hread : ∀ chunks, Hears run job.generation due.1.slot
          (Supervision.readChunks { due.1 with sandbox := due.1.sandbox.markRead p } run job reader due.2.1
            chunks).1.slot :=
        readChunks { due.1 with sandbox := due.1.sandbox.markRead p } reader due.2.1
      dsimp only
      split <;> exact hdue.trans (hread _)
  | awaitExit p reader batcher =>
    rw [Supervision.go]
    split <;> exact refl w.slot
  | close p reader batcher => exact close w p reader batcher
  | rest => exact refl w.slot

theorem depart (w : Supervision) :
    Hears run job.generation w.slot (Supervision.depart run job w).2.slot := by
  rw [Supervision.depart]
  split
  · exact refl w.slot
  · split
    · exact refl w.slot
    · split <;> exact refl w.slot
  · split <;> exact refl w.slot
  · exact refl w.slot
  · split
    · exact refl w.slot
    · split <;> exact refl w.slot
  · exact refl w.slot

end Hears

/-! ## Steps in which runs report -/

/-- A step in which the slot hears of nothing but reports of runs. -/
structure Reported (w w' : Supervision) : Prop where
  generations : w'.jobs.map (·.generation) = w.jobs.map (·.generation)
  reports : w.jobs.map (·.generation) = w.slot.handles.map (·.generation) →
    ∃ reports : List Move, (∀ m ∈ reports, m.reporter?.isSome = true ∧ m.IsHonest) ∧
      w'.slot = reports.foldl Slot.move w.slot ∧
      w'.slot.handles.map (·.generation) = w.slot.handles.map (·.generation)

namespace Reported

variable {workshop : Workshop} {w w' w'' : Supervision}

theorem of_eq (hjobs : w'.jobs.map (·.generation) = w.jobs.map (·.generation)) (hslot : w'.slot = w.slot) :
    Reported w w' :=
  ⟨hjobs, fun _ => ⟨[], nofun, hslot, by rw [hslot]⟩⟩

theorem refl (w : Supervision) : Reported w w := of_eq rfl rfl

theorem trans (h : Reported w w') (h' : Reported w' w'') : Reported w w'' := by
  refine ⟨h'.generations.trans h.generations, ?_⟩
  intro hgen
  obtain ⟨reports, hreports, hslot, hhandles⟩ := h.reports hgen
  obtain ⟨more, hmore, hslot', hhandles'⟩ :=
    h'.reports (h.generations.trans (hgen.trans hhandles.symm))
  refine ⟨reports ++ more, List.forall_mem_append.mpr ⟨hreports, hmore⟩, ?_, hhandles'.trans hhandles⟩
  rw [hslot', hslot, List.foldl_append]

/-- A job that does something reports, if it does so to the slot at all. -/
theorem of_hears {run : Nat} {job : Job} (hjob : w.jobs[run]? = some job) (hspares : Spares run w w')
    (hhears : Hears run job.generation w.slot w'.slot) : Reported w w' := by
  constructor
  · obtain ⟨f, hf⟩ := hspares.jobs
    rw [hf]
    apply map_modify_of_eq
    exact fun job => rfl
  · intro hgen
    obtain ⟨reports, hreports, hslot⟩ := hhears (by rw [← hgen, List.getElem?_map, hjob]; rfl)
    refine ⟨reports, ?_, hslot, ?_⟩
    · intro m hm
      obtain ⟨hrun, honest⟩ := hreports m hm
      exact ⟨by rw [hrun]; rfl, honest⟩
    · rw [hslot, map_generation_reports hreports]

/-- **A job that goes on reports and no more.** -/
theorem resume (w : Supervision) (run : Nat) : Reported w (Supervision.resume workshop w run) := by
  cases hjob : w.jobs[run]? with
  | none =>
    rw [Supervision.resume, hjob]
    exact refl w
  | some job =>
    apply of_hears hjob (Spares.resume w run)
    have h : Hears run job.generation w.slot (Leg.rest, Supervision.resume workshop w run).2.slot :=
      resume_induction (P := fun position => Hears run job.generation w.slot position.2.slot) hjob
        (.depart w) fun leg w' hw => hw.trans (.go w' leg)
    exact h

/-- Jobs that go on one after another report and no more. -/
theorem foldl_resume (w : Supervision) (runs : List Nat) :
    Reported w (runs.foldl (Supervision.resume workshop) { w with ready := [] }) :=
  List.foldlRecOn (motive := Reported w) runs (Supervision.resume workshop) (of_eq rfl rfl)
    fun w' hw' run _ => hw'.trans (resume w' run)

theorem settle (w : Supervision) : Reported w (Supervision.settle workshop w) := foldl_resume w w.ready

/-- A job on its way has reported and no more. -/
theorem stride {run : Nat} {t : Stride} (ht : t ∈ strides workshop w run) : Reported w t.world := by
  obtain ⟨hjob, -, hspares, hhears⟩ :=
    stride_induction
      (P := fun position => Spares run w position.2 ∧ Hears run t.job.generation w.slot position.2.slot)
      ht (fun _ => ⟨.depart w, .depart w⟩)
      fun leg w' ⟨hspares, hhears⟩ => ⟨hspares.trans (.go w' leg), hhears.trans (.go w' leg)⟩
  exact of_hears hjob hspares hhears

theorem elapseJob (w : Supervision) (run time : Nat) :
    Reported w (Supervision.elapseJob workshop w run time) := by
  rcases elapseJob_cases workshop w run time with heq | ⟨job, p, reader, batcher, _, _, hjob, _, heq⟩
  · rw [heq]
    exact refl w
  · apply of_hears hjob (Spares.elapseJob w run time)
    rw [heq]
    exact .deliverBatch w batcher.tick.1

theorem elapse (w : Supervision) (ms : Nat) : Reported w (Supervision.elapse workshop w ms) :=
  elapse_induction (refl w) (fun w' run hw' => hw'.trans (elapseJob w' run _))
    fun _ _ hw' => hw'.trans (of_eq rfl rfl)

end Reported

/-! ## Turns -/

/-- The owner of the slot does not report how runs have ended. -/
theorem Turn.isHonest_of_move? {t : Turn} {m : Move} (hm : t.move? = some m) : m.IsHonest := by
  cases t with
  | settle => cases hm
  | act action =>
    cases m with
    | finish run outcome => cases action <;> cases hm
    | _ => trivial

section Turns

variable {workshop : Workshop} {w : Supervision} {t : Turn}

/-- What the owner of the slot does is what the slot becomes. -/
theorem slot_turn_of_move? {m : Move} (hm : t.move? = some m) :
    (turn workshop w t).slot = w.slot.move m := by
  rcases t.kinds with ht | rfl | ⟨ms, rfl⟩ | ⟨source, text, matchLines, environment, rfl⟩
  · obtain ⟨-, -, hslot⟩ := quiet_turn workshop ht w
    rw [hslot, hm]
    rfl
  · cases hm
  · cases hm
  · obtain rfl : .start source = m := Option.some.inj hm
    exact slot_start source text matchLines environment w

/-- Unless the owner of the slot does something, it hears of nothing but reports of runs. -/
theorem reported_turn (hm : t.move? = none) : Reported w (turn workshop w t) := by
  rcases t.kinds with ht | rfl | ⟨ms, rfl⟩ | ⟨source, text, matchLines, environment, rfl⟩
  · obtain ⟨hjobs, -, hslot⟩ := quiet_turn workshop ht w
    rw [hm] at hslot
    exact .of_eq (congrArg (List.map (·.generation)) hjobs) hslot
  · exact .settle w
  · exact (Reported.settle w).trans (.elapse _ ms)
  · cases hm

end Turns

/-- Every job of a history has the generation of its handle. -/
theorem generations_after (workshop : Workshop) (turns : List Turn) :
    (after workshop turns).jobs.map (·.generation) =
      (after workshop turns).slot.handles.map (·.generation) := by
  obtain ⟨log, hworld, -⟩ := sound_after workshop turns
  exact hworld.generations

/-- The slot of a history is coherent. -/
theorem coherent_after (workshop : Workshop) (turns : List Turn) :
    (after workshop turns).slot.Coherent := by
  obtain ⟨log, hworld, -⟩ := sound_after workshop turns
  exact hworld.coherent

/-- Unless the owner of the slot does something in a turn, runs report and no more. -/
theorem exists_reports_of_turn (workshop : Workshop) (turns : List Turn) {t : Turn} (hm : t.move? = none) :
    ∃ reports : List Move, (∀ m ∈ reports, m.reporter?.isSome = true ∧ m.IsHonest) ∧
      (after workshop (turns ++ [t])).slot = reports.foldl Slot.move (after workshop turns).slot := by
  have hreported : Reported (after workshop turns) (turn workshop (after workshop turns) t) :=
    reported_turn hm
  obtain ⟨reports, hreports, hslot, -⟩ := hreported.reports (generations_after workshop turns)
  exact ⟨reports, hreports, by rw [after_append_singleton, hslot]⟩

/-- Reports start no run. -/
theorem Slot.filterMap_source?_reports {reports : List Move}
    (hreports : ∀ m ∈ reports, m.reporter?.isSome = true) : reports.filterMap Move.source? = [] := by
  apply List.filterMap_eq_nil_iff.mpr
  exact fun m hm => Move.source?_of_reporter? (hreports m hm)

/-- What the slot becomes in a turn is what honest moves lead to, and they start what the turn starts. -/
theorem exists_honest_moves_turn (workshop : Workshop) (turns : List Turn) (t : Turn) :
    ∃ moves : List Move, (∀ m ∈ moves, m.IsHonest) ∧
      moves.filterMap Move.source? = t.request?.toList.map Request.source ∧
      (after workshop (turns ++ [t])).slot = moves.foldl Slot.move (after workshop turns).slot := by
  have hsource := t.bind_source?_move?
  cases hm : t.move? with
  | none =>
    obtain ⟨reports, hreports, hslot⟩ := exists_reports_of_turn workshop turns hm
    refine ⟨reports, fun m hm => (hreports m hm).2, ?_, hslot⟩
    have hrequest : t.request? = none := by simpa [hm] using hsource.symm
    rw [filterMap_source?_reports fun m hm => (hreports m hm).1, hrequest]
    rfl
  | some m =>
    refine ⟨[m], ?_, ?_, by rw [after_append_singleton, slot_turn_of_move? hm]; rfl⟩
    · intro m' hm'
      rw [List.mem_singleton.mp hm']
      exact Turn.isHonest_of_move? hm
    · rw [hm, Option.bind_some] at hsource
      rw [List.filterMap_cons, List.filterMap_nil, hsource]
      cases t.request? <;> rfl

/-- What the slot becomes in a history is what honest moves lead to, and they start what is asked for. -/
theorem exists_honest_moves_after (workshop : Workshop) (earlier later : List Turn) :
    ∃ moves : List Move, (∀ m ∈ moves, m.IsHonest) ∧
      moves.filterMap Move.source? = (requests later).map Request.source ∧
      (after workshop (earlier ++ later)).slot = moves.foldl Slot.move (after workshop earlier).slot := by
  induction later using List.reverseRecOn with
  | nil => exact ⟨[], nofun, rfl, by rw [List.append_nil]; rfl⟩
  | append_singleton later t ih =>
    obtain ⟨moves, honest, hsources, hslot⟩ := ih
    obtain ⟨more, honest', hsources', hslot'⟩ := exists_honest_moves_turn workshop (earlier ++ later) t
    refine ⟨moves ++ more, List.forall_mem_append.mpr ⟨honest, honest'⟩, ?_, ?_⟩
    · rw [List.filterMap_append, hsources, hsources', requests_append_singleton, List.map_append]
    · rw [← List.append_assoc, hslot', hslot, List.foldl_append]

/-- **The slot of any history is one that honest moves lead to.** They start what is asked for. -/
theorem exists_honest_moves (workshop : Workshop) (turns : List Turn) :
    ∃ moves : List Move, (∀ m ∈ moves, m.IsHonest) ∧
      moves.filterMap Move.source? = (requests turns).map Request.source ∧
      (after workshop turns).slot = reached moves := by
  obtain ⟨moves, honest, hsources, hslot⟩ := exists_honest_moves_after workshop [] turns
  exact ⟨.subscribe :: moves, List.forall_mem_cons.mpr ⟨trivial, honest⟩, hsources, hslot⟩

end Scratchpad.Run
