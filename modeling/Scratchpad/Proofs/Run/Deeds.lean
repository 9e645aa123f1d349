import Scratchpad.Proofs.Run.Itinerary

/-!
# What runs do that stays

Of all that runs do, the files that they write and the programs that they start stay. Such a deed is done
at a stride, unless the sandbox refuses it. So the record of a history is what the deeds of its itinerary
leave behind, and whatever holds of these deeds holds of every file that is written and of every program
that is started.

## Main definitions

* `Leg.deed?`, `Stride.deed?`: what is done on a leg and at a stride.

## Main statements

* `record_go`: a leg leaves behind what is done on it.
* `record_after`: the record of a history is what the deeds of its itinerary leave behind.
-/

namespace Scratchpad.Run

open Log Sandbox Supervision

/-! ## What is done on a leg -/

/-- What a job starts its program with. -/
def Job.launch (workshop : Workshop) (job : Job) : Launch :=
  ⟨workshop.settings.program, [workshop.settings.entryFile], job.environment⟩

/-- What is done on a leg, unless the sandbox refuses it. -/
def Leg.deed? (workshop : Workshop) (run : Nat) (job : Job) (s : Script) : Leg → Option Deed
  | .write part entry =>
    (s.write (part.path workshop) (part.contents entry)).1.toOption.map fun _ =>
      .write (part.path workshop) (part.contents entry)
  | .spawn => (s.spawn run (job.launch workshop)).1.toOption.map fun _ => .start (job.launch workshop)
  | _ => none

/-- What is done at a stride. -/
def Stride.deed? (workshop : Workshop) (t : Stride) : Option Deed :=
  t.leg.deed? workshop t.run t.job t.world.sandbox

section Legs

variable {workshop : Workshop} {run : Nat} {job : Job} (w : Supervision)

@[simp] theorem sandbox_deliverBatch (batch : Option (List Entry)) :
    (w.deliverBatch run job batch).sandbox = w.sandbox := by
  cases batch <;> rfl

@[simp] theorem sandbox_readChunks (reader : LineReader) (batcher : Batcher Entry) (chunks : List String) :
    (w.readChunks run job reader batcher chunks).1.sandbox = w.sandbox := by
  induction chunks generalizing w reader batcher with
  | nil => rfl
  | cons chunk chunks ih => exact (ih _ _ _).trans (sandbox_deliverBatch w _)

@[simp] theorem sandbox_flushDue (batcher : Batcher Entry) (nextFlush : Nat) :
    (flushDue workshop w run job batcher nextFlush).1.sandbox = w.sandbox := by
  rw [flushDue]
  split
  · exact sandbox_deliverBatch w _
  · rfl

theorem sandbox_close (p : Nat) (reader : LineReader) (batcher : Batcher Entry) :
    (w.close run job p reader batcher).sandbox = w.sandbox.dismiss p := by
  rw [close]
  dsimp only
  split <;> simp [conclude, fail, atStage]

theorem record_close (p : Nat) (reader : LineReader) (batcher : Batcher Entry) :
    (w.close run job p reader batcher).sandbox.record = w.sandbox.record := by
  rw [sandbox_close]
  exact Script.record_modifyProcess ..

/-- **A leg leaves behind what is done on it.** -/
theorem record_go (leg : Leg) :
    (go workshop run job w leg).2.sandbox.record =
      (leg.deed? workshop run job w.sandbox).elim w.sandbox.record (Deed.apply w.sandbox.record) := by
  cases leg with
  | begin source =>
    rw [go]
    split <;> rfl
  | reach part entry =>
    rw [go]
    split
    · rfl
    · split
      · exact Script.record_await ..
      · rfl
  | write part entry =>
    have hwrite := w.sandbox.record_write (part.path workshop) (part.contents entry)
    rw [go, Leg.deed?, ← hwrite]
    split <;> simp_all [fail, conclude, atStage]
  | reachSpawn =>
    rw [go]
    split
    · exact Script.record_await ..
    · rfl
  | spawn =>
    have hspawn := w.sandbox.record_spawn run (job.launch workshop)
    rw [go, Leg.deed?, ← hspawn, Job.launch]
    dsimp only
    split
    · simp_all [fail, conclude, atStage]
    · rename_i p sandbox heq
      rw [heq]
      split
      · exact (Script.record_modifyProcess ..).trans (Script.record_modifyProcess ..)
      · rfl
  | read p reader batcher nextFlush =>
    rw [go]
    split
    · exact (Script.record_modifyProcess ..).trans (Script.record_modifyProcess ..)
    · dsimp only
      split <;> simp [atStage, Script.markRead, Leg.deed?]
  | awaitExit p reader batcher =>
    rw [go]
    split
    · exact Script.record_await ..
    · rfl
  | close p reader batcher => exact record_close w p reader batcher
  | rest => rfl

theorem record_depart : (depart run job w).2.sandbox.record = w.sandbox.record := by
  rw [depart]
  split
  · rfl
  · split
    · exact Script.record_leave ..
    · split <;> rfl
  · split <;> rfl
  · rfl
  · split
    · simp [abandon, atStage, Script.kill, Script.dismiss]
    · split <;> rfl
  · rfl

end Legs

/-! ## What is done in a history -/

/-- What a stride makes of a record. -/
def Stride.apply (workshop : Workshop) (r : Record) (t : Stride) : Record :=
  (t.deed? workshop).elim r (Deed.apply r)

theorem foldl_apply (workshop : Workshop) (r : Record) (ts : List Stride) :
    ts.foldl (Stride.apply workshop) r = (ts.filterMap (Stride.deed? workshop)).foldl Deed.apply r := by
  induction ts generalizing r with
  | nil => rfl
  | cons t ts ih =>
    rw [List.foldl_cons, ih, Stride.apply]
    cases hdeed : t.deed? workshop <;> simp [hdeed]

section History

variable (workshop : Workshop) (w : Supervision)

/-- A job that goes on leaves behind what is done at its strides. -/
theorem record_resume (run : Nat) :
    (resume workshop w run).sandbox.record =
      (strides workshop w run).foldl (Stride.apply workshop) w.sandbox.record := by
  cases hjob : w.jobs[run]? with
  | none => simp [resume, strides, hjob]
  | some job =>
    rw [← List.nil_append (strides workshop w run)]
    refine strides_induction
      (P := fun log position =>
        position.2.sandbox.record = log.foldl (Stride.apply workshop) w.sandbox.record)
      hjob (record_depart w) ?_
    intro log leg w' hw'
    rw [List.foldl_append, ← hw']
    exact record_go w' leg

theorem record_settle :
    (settle workshop w).sandbox.record =
      (stridesReady workshop w).foldl (Stride.apply workshop) w.sandbox.record :=
  foldl_said (f := fun w => w.sandbox.record) (record_resume workshop) { w with ready := [] } w.ready

theorem sandbox_elapseJob (run time : Nat) : (elapseJob workshop w run time).sandbox = w.sandbox := by
  rcases elapseJob_cases workshop w run time with heq | ⟨job, p, reader, batcher, _, _, _, _, heq⟩
  · rw [heq]
  · rw [heq]
    exact sandbox_deliverBatch w _

theorem sandbox_elapse (ms : Nat) : (elapse workshop w ms).sandbox = w.sandbox :=
  elapse_induction (P := fun w' => w'.sandbox = w.sandbox) rfl
    (fun w' run hw' => (sandbox_elapseJob workshop w' run _).trans hw') fun _ _ hw' => hw'

/-- A turn leaves behind what is done at its strides. -/
theorem record_turn (t : Turn) :
    (turn workshop w t).sandbox.record =
      (stridesTurn workshop w t).foldl (Stride.apply workshop) w.sandbox.record := by
  rcases t.kinds with ht | rfl | ⟨ms, rfl⟩ | ⟨source, text, matchLines, environment, rfl⟩
  · obtain ⟨-, hrecord, -⟩ := quiet_turn workshop ht w
    rw [hrecord, stridesTurn_of_isQuiet ht]
    rfl
  · exact record_settle workshop w
  · exact (congrArg Script.record (sandbox_elapse workshop _ ms)).trans (record_settle workshop w)
  · exact congrArg Script.record (sandbox_start source text matchLines environment w)

/-- **The record of a history is what the deeds of its itinerary leave behind.** -/
theorem record_after (turns : List Turn) :
    (after workshop turns).sandbox.record =
      ((itinerary workshop turns).filterMap (Stride.deed? workshop)).foldl Deed.apply ([], []) := by
  rw [← foldl_apply]
  exact foldl_said (f := fun w => w.sandbox.record) (record_turn workshop) initial turns

end History

end Scratchpad.Run
