import Scratchpad.Proofs.Run.Progress

/-!
# Performances

A run is started, and its program prints chunks and ends with a code. In between, jobs go on and time goes by
as they like. Whatever they do, the only subscriber is told of the run as if nothing lay between the prints:
that it started, all entries of the text, and how it ended. While the program goes on, no end is told.

## Main definitions

* `Turn.doing?`: what is done in a turn, apart from jobs that go on and time that goes by.
* `Slot.Solo`: a slot that has told one subscriber of one run and of nothing else.
* `opening`, `begun`: the turns in which a run is started, and the world when its job is about to go on.
* `Performs`: what holds while a program is played.
* `failureEvents`: what is told of a run whose program cannot be started.

## Main statements

* `performs_opening`: what holds when the run has been started.
* `Performs.pass`, `Performs.print`, `Performs.exit`: what a turn preserves.
* `Performs.play`: what holds when the program has been played to its end.
* `Performs.silent`, `Performs.reports`: what the subscriber has received before and after the end.
* `subscribers_of_uncompiled`, `subscribers_of_unwritten`, `subscribers_of_unspawned`: what the subscriber has
  received if the program cannot be started.
-/

namespace Scratchpad.Run

open Log Sandbox Supervision Slot

/-! ## One run and one subscriber -/

/-- A slot that has told one subscriber of one run and of nothing else, and of no end while the run has it. -/
structure Slot.Solo (run : Nat) (source : String) (s : Slot) : Prop where
  coherent : s.Coherent
  kept : s.isCancelled run = false
  only : ∀ r, s.active = some r → r = run
  told : ∃ later : List (Event Nat Entry), s.subscribers = [⟨true, .started run source :: later⟩] ∧
    (∀ e ∈ later, e.run = run) ∧ (s.active = some run → ∀ outcome, .finished run outcome ∉ later)

namespace Slot.Solo

variable {run : Nat} {source : String} {s : Slot}

/-- What is told of a report is told of the run that has the slot, and no end is told of it while it keeps
the slot. -/
theorem told_of_reporter? (hs : s.Coherent) {m : Move} (hm : m.reporter?.isSome = true) :
    (∀ e ∈ s.told m, s.active = some e.run) ∧
      ∀ r outcome, .finished r outcome ∈ s.told m → (s.move m).active = none := by
  cases m with
  | deliver r entries =>
    rw [Slot.told]
    split
    · rename_i hc
      simp [Event.run, hc.2]
    · simp
  | setRunning r => simp [Slot.told]
  | finish r outcome =>
    rw [Slot.told, hs.move_finish]
    split
    · rename_i ha
      simp [Event.run, ha]
    · simp
  | _ => cases hm

theorem move (h : s.Solo run source) {m : Move} (hm : m.reporter?.isSome = true) :
    (s.move m).Solo run source := by
  have hsource := Move.source?_of_reporter? hm
  have hactive : ∀ r, (s.move m).active = some r → s.active = some r :=
    fun r hr => h.coherent.active_of_move hsource hr
  obtain ⟨later, hsubscribers, hruns, hopen⟩ := h.told
  obtain ⟨htold, hend⟩ := told_of_reporter? h.coherent hm
  have hheard : (s.move m).subscribers = s.subscribers.map (hear (s.told m)) := by
    apply h.coherent.subscribers_move
    · rintro rfl
      cases hm
    · rintro i rfl
      cases hm
  constructor
  case coherent => exact h.coherent.move m
  case kept =>
    rw [← Bool.not_eq_true]
    intro hc
    have hone : ∀ m' ∈ [m], m'.reporter?.isSome = true := by simpa using hm
    have hc' : s.isCancelled run = true := h.coherent.isCancelled_of_reports hone hc
    rw [h.kept] at hc'
    cases hc'
  case only => exact fun r hr => h.only r (hactive r hr)
  case told =>
    refine ⟨later ++ s.told m, by rw [hheard, hsubscribers]; rfl, ?_, ?_⟩
    · intro e he
      rcases List.mem_append.mp he with he | he
      · exact hruns e he
      · exact h.only e.run (htold e he)
    · intro ha outcome he
      rcases List.mem_append.mp he with he | he
      · exact hopen (hactive run ha) outcome he
      · rw [hend run outcome he] at ha
        cases ha

theorem foldl (h : s.Solo run source) {reports : List Move}
    (hreports : ∀ m ∈ reports, m.reporter?.isSome = true) : (reports.foldl Slot.move s).Solo run source :=
  List.foldlRecOn (motive := fun s => s.Solo run source) reports Slot.move h
    fun _ hs m hm => hs.move (hreports m hm)

end Slot.Solo

/-! ## The opening -/

/-- What is done in a turn, apart from jobs that go on and time that goes by. -/
def Turn.doing? : Turn → Option Action
  | .settle | .act (.advance _) => none
  | .act action => some action

theorem Turn.eq_act_of_doing? {t : Turn} {action : Action} (h : t.doing? = some action) : t = .act action := by
  cases t with
  | settle => cases h
  | act action' =>
    cases action' with
    | advance ms => cases h
    | _ =>
      obtain rfl := Option.some.inj h
      rfl

/-- A run is started, and its job goes on for as long as it can. -/
def opening (req : Request) : List Turn :=
  [.act (.start req.source req.text req.matchLines req.environment), .settle]

/-- The job of the only run, before it has done anything. -/
def firstJob (req : Request) : Job := ⟨1, req.matchLines, req.environment, .fresh req.text⟩

/-- The world in which the only run has been started in a sandbox, and its job goes on. -/
def begun (req : Request) (sandbox : Script) : Supervision :=
  ⟨⟨1, .starting, some 0, [⟨1, false⟩], [], none, [⟨true, [.started 0 req.source]⟩]⟩, sandbox,
    [firstJob req], [], 0⟩

theorem settle_start (workshop : Workshop) (req : Request) (sandbox : Script) :
    settle workshop (Supervision.start { initial with sandbox := sandbox } req.source req.text
      req.matchLines req.environment) = begin workshop (begun req sandbox) 0 (firstJob req) req.text := rfl

/-- What holds while the program of the only run is played: so far it has printed some chunks and goes on, or
has ended in some way. -/
structure Performs (workshop : Workshop) (req : Request) (chunks : List String) (control : Control)
    (turns : List Turn) : Prop where
  requests : requests turns = [req]
  slot : (after workshop turns).slot.Solo 0 req.source
  free : (after workshop turns).sandbox.IsFree
  process : ∃ q, (after workshop turns).sandbox.processes[0]? = some q ∧ q.owner = 0 ∧ q.control = control
  printed : printed workshop turns 0 = chunks

variable {workshop : Workshop} {req : Request} {chunks : List String} {control : Control}
  {turns : List Turn}

theorem ready_opening (workshop : Workshop) (req : Request) :
    (after workshop (opening req)).ready = [] := by
  have hlast : opening req =
      [.act (.start req.source req.text req.matchLines req.environment)] ++ [.settle] := rfl
  rw [hlast, after_append_singleton]
  exact ready_settle _

theorem after_opening (workshop : Workshop) (req : Request) :
    after workshop (opening req) = begin workshop (begun req Script.empty) 0 (firstJob req) req.text :=
  settle_start workshop req Script.empty

/-- The world when a run has been started whose source has code: the program has printed nothing yet. -/
theorem exists_after_opening {entry : String}
    (h : composed workshop req.matchLines req.text = .ok entry) :
    ∃ files launches stage, after workshop (opening req) =
      ⟨⟨1, .running, some 0, [⟨1, false⟩], [], none, [⟨true, [.started 0 req.source]⟩]⟩,
        { Script.empty with
          files := files, launches := launches, processes := [⟨0, [], .alive, false, true⟩] },
        [{ firstJob req with stage := stage }], [], 0⟩ := by
  rw [after_opening]
  simp [begun, firstJob, begin, h, reachPreamble, writePreamble, reachEntry, writeEntry, reachSpawn,
    Supervision.spawn, readOutput, flushDue, readChunks, deliverBatch, atStage, Slot.isCancelled,
    Slot.setRunning, isCurrent, activeHandle?, Script.empty, Script.write, Script.spawn, Script.markRead,
    Script.modifyProcess, Script.controlled?, Batcher.tick, Batcher.ofMark, Option.filter]

/-- **What holds when a run has been started** whose source has code. -/
theorem performs_opening {entry : String} (h : composed workshop req.matchLines req.text = .ok entry) :
    Performs workshop req [] .alive (opening req) := by
  have hcoherent := coherent_after workshop (opening req)
  obtain ⟨files, launches, stage, hworld⟩ := exists_after_opening h
  rw [hworld] at hcoherent
  refine ⟨rfl, ?_, ?_, ?_, rfl⟩
  all_goals rw [hworld]
  · exact ⟨hcoherent, rfl, fun r hr => (Option.some.inj hr).symm, [], rfl, by simp, by simp⟩
  · intro point
    cases point <;> rfl
  · exact ⟨_, rfl, rfl, rfl⟩

/-! ## What turns preserve -/

namespace Performs

/-- The subscriber is told by reports and in no other way, unless the owner of the slot does something. -/
theorem slot_turn (h : Performs workshop req chunks control turns) {t : Turn} (hm : t.move? = none) :
    (after workshop (turns ++ [t])).slot.Solo 0 req.source := by
  obtain ⟨reports, hreports, hslot⟩ := exists_reports_of_turn workshop turns hm
  rw [hslot]
  exact h.slot.foldl fun m hm => (hreports m hm).1

theorem requests_turn (h : Performs workshop req chunks control turns) {t : Turn} (hr : t.request? = none) :
    Run.requests (turns ++ [t]) = [req] := by
  rw [requests_append_singleton, hr, h.requests]
  rfl

/-- **Nothing changes while jobs go on and time goes by.** -/
theorem pass (h : Performs workshop req chunks control turns) {t : Turn} (ht : t.doing? = none) :
    Performs workshop req chunks control (turns ++ [t]) := by
  have hworks : (after workshop turns).sandbox.Works (after workshop (turns ++ [t])).sandbox := by
    rw [after_append_singleton]
    cases t with
    | settle => exact works_settle _
    | act action =>
      cases action with
      | advance ms =>
        rw [turn, perform, sandbox_elapse]
        exact works_settle _
      | _ => cases ht
  obtain ⟨q, hq, howner, hcontrol⟩ := h.process
  obtain ⟨q', hq', howner', hcontrol'⟩ := hworks.exists_process hq
  have hquiet : t.move? = none ∧ t.request? = none ∧ prints 0 (after workshop turns) t = [] := by
    cases t with
    | settle => exact ⟨rfl, rfl, rfl⟩
    | act action =>
      cases action with
      | advance ms => exact ⟨rfl, rfl, rfl⟩
      | _ => cases ht
  obtain ⟨hmove, hrequest, hprints⟩ := hquiet
  constructor
  case requests => exact h.requests_turn hrequest
  case slot => exact h.slot_turn hmove
  case free => exact hworks.isFree h.free
  case process => exact ⟨q', hq', howner'.trans howner, hcontrol'.trans hcontrol⟩
  case printed => rw [printed_append_singleton, hprints, List.append_nil, h.printed]

/-- What the program of the run is told to do changes its process and nothing else, if it goes on. -/
theorem tell (h : Performs workshop req chunks .alive turns) (action : Action)
    (ha : action.addressee? = some 0) :
    ∃ q, (after workshop turns).sandbox.controlled? 0 = some q ∧ q.control = .alive ∧
      Performs workshop req (chunks ++ prints 0 (after workshop turns) (.act action))
        (action.effect q).control (turns ++ [.act action]) := by
  obtain ⟨q, hq, howner, halive⟩ := h.process
  have hcontrolled := ((after workshop turns).sandbox.controlled?_eq_some 0).mpr ⟨hq, halive⟩
  have hquiet : Turn.move? (.act action) = none ∧ Turn.request? (.act action) = none := by
    cases action with
    | emit p chunk | exit p code | lose p => exact ⟨rfl, rfl⟩
    | _ => cases ha
  have hacted : after workshop (turns ++ [.act action]) =
      { after workshop turns with
        sandbox := (after workshop turns).sandbox.modifyProcess 0 action.effect }.wake q.owner := by
    rw [after_append_singleton]
    exact perform_of_controlled ha hcontrolled
  refine ⟨q, hcontrolled, halive, ?_⟩
  constructor
  case requests => exact h.requests_turn hquiet.2
  case slot => exact h.slot_turn hquiet.1
  case free =>
    intro point
    rw [hacted, sandbox_wake, Script.gate_modifyProcess]
    exact h.free point
  case process =>
    refine ⟨action.effect q, ?_, (action.owner_effect q).trans howner, rfl⟩
    rw [hacted, sandbox_wake, Script.getElem?_modifyProcess, if_pos rfl, hq]
    rfl
  case printed => rw [printed_append_singleton, h.printed]

/-- **A print is one chunk more.** -/
theorem print (h : Performs workshop req chunks .alive turns) (chunk : String) :
    Performs workshop req (chunks ++ [chunk]) .alive (turns ++ [.act (.emit 0 chunk)]) := by
  obtain ⟨q, hq, halive, htold⟩ := h.tell (.emit 0 chunk) rfl
  have hprints : Supervision.prints 0 (after workshop turns) (.act (.emit 0 chunk)) = [chunk] :=
    if_pos ⟨rfl, by rw [hq]; rfl⟩
  have hcontrol : ((Action.emit 0 chunk).effect q).control = .alive := by
    rw [Action.effect]
    split <;> exact halive
  rwa [hprints, hcontrol] at htold

/-- **The program ends.** -/
theorem exit (h : Performs workshop req chunks .alive turns) (code : Int32) :
    Performs workshop req chunks (.exited code) (turns ++ [.act (.exit 0 code)]) := by
  obtain ⟨q, -, -, htold⟩ := h.tell (.exit 0 code) rfl
  have hprints : Supervision.prints 0 (after workshop turns) (.act (.exit 0 code)) = [] := rfl
  rwa [hprints, List.append_nil] at htold

/-! ## What a whole run preserves -/

/-- Turns in which nothing is done preserve everything. -/
theorem rest (h : Performs workshop req chunks control turns) {more : List Turn}
    (hmore : more.filterMap Turn.doing? = []) : Performs workshop req chunks control (turns ++ more) := by
  induction more generalizing turns with
  | nil => rwa [List.append_nil]
  | cons t more ih =>
    rw [List.filterMap_eq_nil_iff, List.forall_mem_cons] at hmore
    rw [List.append_cons]
    exact ih (h.pass hmore.1) (List.filterMap_eq_nil_iff.mpr hmore.2)

/-- Turns in which the program prints add what it prints. -/
theorem go (h : Performs workshop req chunks .alive turns) {more : List Turn} {later : List String}
    (hmore : more.filterMap Turn.doing? = later.map (.emit 0)) :
    Performs workshop req (chunks ++ later) .alive (turns ++ more) := by
  induction more generalizing turns chunks later with
  | nil =>
    obtain rfl : later = [] := by simpa using hmore.symm
    simpa using h
  | cons t more ih =>
    rw [List.append_cons]
    cases ht : t.doing? with
    | none =>
      rw [List.filterMap_cons_none ht] at hmore
      exact ih (h.pass ht) hmore
    | some action =>
      rw [List.filterMap_cons_some ht] at hmore
      cases later with
      | nil => cases hmore
      | cons chunk later =>
        obtain ⟨rfl, hrest⟩ := List.cons.inj hmore
        obtain rfl : t = .act (.emit 0 chunk) := Turn.eq_act_of_doing? ht
        rw [List.append_cons]
        exact ih (h.print chunk) hrest

/-- **What holds when the program has been played to its end**, whatever lay between its prints. -/
theorem play (h : Performs workshop req chunks .alive turns) {more : List Turn} {later : List String}
    {code : Int32} (hmore : more.filterMap Turn.doing? = later.map (.emit 0) ++ [.exit 0 code]) :
    Performs workshop req (chunks ++ later) (.exited code) (turns ++ more) := by
  obtain ⟨before, behind, rfl, hbefore, hbehind⟩ := List.filterMap_eq_append_iff.mp hmore
  obtain ⟨idle, t, after, rfl, hidle, ht, hafter⟩ := List.filterMap_eq_cons_iff.mp hbehind
  obtain rfl : t = .act (.exit 0 code) := Turn.eq_act_of_doing? ht
  have hprinted := ((h.go hbefore).rest (List.filterMap_eq_nil_iff.mpr hidle)).exit code
  have hended := hprinted.rest hafter
  simpa [List.append_assoc] using hended

/-! ## What is received -/

/-- **While the program goes on, no end is told.** -/
theorem silent (h : Performs workshop req chunks .alive turns) (hready : (after workshop turns).ready = []) :
    ∃ received, (after workshop turns).slot.subscribers = [⟨true, received⟩] ∧
      ∀ outcome, .finished 0 outcome ∉ received := by
  obtain ⟨later, hsubscribers, -, hopen⟩ := h.slot.told
  obtain ⟨q, hq, howner, halive⟩ := h.process
  obtain ⟨job, hjob⟩ : ∃ job, (after workshop turns).jobs[0]? = some job := by
    have hlength := length_requests workshop turns
    rw [h.requests] at hlength
    exact ⟨_, List.getElem?_eq_getElem (by rw [← hlength]; exact Nat.one_pos)⟩
  have hactive : (after workshop turns).slot.active = some 0 := by
    rcases reads_or_ended hready h.free hjob with ⟨_, _, _, _, _, -, ha, -⟩ | hended
    · exact ha
    · obtain ⟨log, -, hfits⟩ := sound_after workshop turns
      have hover := hfits 0 job hjob
      rw [hended] at hover
      exact absurd halive (hover.ended h.slot.kept 0 q (owned_eq_some.mpr ⟨hq, howner⟩))
  refine ⟨_, hsubscribers, ?_⟩
  intro outcome hmem
  exact hopen hactive outcome (by simpa using hmem)

/-- **When the program has ended**, the subscriber has received a report of the whole text. -/
theorem reports {code : Int32} (h : Performs workshop req chunks (.exited code) turns)
    (hready : (after workshop turns).ready = []) :
    ∃ received, (after workshop turns).slot.subscribers = [⟨true, received⟩] ∧
      Reports 0 req.source (LineReader.entriesOf req.matchLines (String.join chunks)) (.completed code)
        received := by
  obtain ⟨later, hsubscribers, hruns, -⟩ := h.slot.told
  obtain ⟨q, hq, howner, hcode⟩ := h.process
  have hreq : (Run.requests turns)[0]? = some req := by rw [h.requests]; rfl
  have hkept := h.slot.kept
  obtain ⟨moves, hslot, hover⟩ :=
    exists_over hreq hq howner (by simp [hcode]) hkept (.inr ⟨hready, h.free .wait⟩)
  obtain ⟨hdelivered, hfinished⟩ := hover.exited hkept 0 q code (owned_eq_some.mpr ⟨hq, howner⟩) hcode
  have hu : (⟨true, .started 0 req.source :: later⟩ : Subscriber) ∈ (Slot.play moves).subscribers := by
    rw [← hslot, hsubscribers]
    exact List.mem_singleton_self _
  have hreports := reports_received hu rfl List.mem_cons_self hfinished
  have hall : Slot.ofRun 0 (.started 0 req.source :: later) = .started 0 req.source :: later := by
    refine List.filter_eq_self.mpr (List.forall_mem_cons.mpr ⟨rfl, ?_⟩)
    intro e he
    exact beq_iff_eq.mpr (hruns e he)
  refine ⟨_, hsubscribers, ?_⟩
  rw [← h.printed, ← hdelivered]
  rwa [hall] at hreports

end Performs

/-! ## Runs that fail -/

/-- The events of a run that has told why it failed. -/
def failureEvents (source message : String) : List (Event Nat Entry) :=
  [.started 0 source, .output 0 [Entry.ofFailure message], .finished 0 (.failed message)]

section Failure

variable {sandbox : Script} {entry path reason : String}

/-- The only run has told nothing but its start, so its failure is all that follows. -/
theorem subscribers_fail {w : Supervision} (hw : w.slot = (begun req sandbox).slot) (message : String) :
    (w.fail 0 (firstJob req) message).slot.subscribers = [⟨true, failureEvents req.source message⟩] := by
  simp [Supervision.fail, conclude, atStage, hw, begun, firstJob, Slot.deliver, Slot.finish, isCurrent,
    activeHandle?, emit, Subscriber.notify, failureEvents]

/-- What is told when the source does not compile. -/
theorem subscribers_of_uncompiled {failure : CompileFailure}
    (h : composed workshop req.matchLines req.text = .error failure) :
    (begin workshop (begun req sandbox) 0 (firstJob req) req.text).slot.subscribers =
      [⟨true, failureEvents req.source failure.message⟩] := by
  have hbegin : begin workshop (begun req sandbox) 0 (firstJob req) req.text =
      (begun req sandbox).fail 0 (firstJob req) failure.message := by
    simp [begin, firstJob, h]
  rw [hbegin]
  exact subscribers_fail rfl failure.message

/-- What is told when a file cannot be written. -/
theorem subscribers_of_unwritten {failure : Failure}
    (h : composed workshop req.matchLines req.text = .ok entry)
    (hpath : path = preambleFile ∨ path = workshop.settings.entryFile)
    (hsandbox : sandbox = { Script.empty with refusals := [(path, failure)] }) :
    (begin workshop (begun req sandbox) 0 (firstJob req) req.text).slot.subscribers =
      [⟨true, failureEvents req.source failure.message⟩] := by
  subst hsandbox
  by_cases hp : path = preambleFile
  · have hbegin : begin workshop (begun req { Script.empty with refusals := [(path, failure)] }) 0
        (firstJob req) req.text =
        (begun req { Script.empty with refusals := [(path, failure)] }).fail 0 (firstJob req)
          failure.message := by
      simp [begin, firstJob, begun, h, hp, reachPreamble, writePreamble, Slot.isCancelled, Script.empty,
        Script.write]
    rw [hbegin]
    exact subscribers_fail rfl failure.message
  · obtain rfl := hpath.resolve_left hp
    have hne : (preambleFile == workshop.settings.entryFile) = false := beq_false_of_ne (Ne.symm hp)
    let refusing : Script := { Script.empty with refusals := [(workshop.settings.entryFile, failure)] }
    let written : Supervision :=
      { begun req refusing with sandbox := (refusing.write preambleFile preamble).2 }
    have hbegin : begin workshop (begun req refusing) 0 (firstJob req) req.text =
        written.fail 0 (firstJob req) failure.message := by
      simp [written, refusing, begin, firstJob, begun, h, hne, reachPreamble, writePreamble, reachEntry,
        writeEntry, Slot.isCancelled, Script.empty, Script.write, List.lookup_cons, List.lookup_nil]
    rw [hbegin]
    exact subscribers_fail rfl failure.message

/-- What is told when the program cannot be started. -/
theorem subscribers_of_unspawned (h : composed workshop req.matchLines req.text = .ok entry) :
    (begin workshop (begun req (Script.empty.failSpawn reason)) 0 (firstJob req) req.text).slot.subscribers =
      [⟨true, failureEvents req.source (Failure.spawn workshop.settings.program reason).message⟩] := by
  let failing : Script := Script.empty.failSpawn reason
  let ready : Script := ((failing.write preambleFile preamble).2.write workshop.settings.entryFile entry).2
  let unspawned : Supervision :=
    { begun req failing with sandbox := { ready with spawnFailure := none } }
  have hbegin : begin workshop (begun req failing) 0 (firstJob req) req.text =
      unspawned.fail 0 (firstJob req) (Failure.spawn workshop.settings.program reason).message := by
    simp [unspawned, ready, failing, begin, firstJob, begun, h, reachPreamble, writePreamble, reachEntry,
      writeEntry, reachSpawn, Supervision.spawn, Slot.isCancelled, Script.empty, Script.write, Script.spawn,
      Script.failSpawn]
  rw [hbegin]
  exact subscribers_fail rfl _

end Failure

end Scratchpad.Run
