import Scratchpad.Proofs.Run.OwnCode

/-!
# The errands of a run

Before the program of a run runs, four things have to be done, each of which may fail: the source is
compiled, the preamble is written, the composed source is written, and the program is started. A run goes on
these errands in this order and on each of them once. It goes on the next one only if the one before has
not failed, so whatever failed is the last thing that the run did.

## Main definitions

* `Errand`, `Errand.way`: the errands of a run and their order.
* `Leg.errand?`, `Leg.failure?`, `Stride.failure?`: the errand of a leg, and how it fails.
* `trail`: the errands that a run goes on in a history.
* `InOrder`, `Follows`: how a trail fits the way, and the leg that is ahead.

## Main statements

* `OnTrail.go`: every leg leads along the way.
* `inOrder_trail`: every run goes on its errands in order, and only the last of them may have failed.
* `InOrder.exists_init`: an errand that has failed is the last one.
* `deedsOf_of_failure`: what a run leaves behind when one of its errands fails.
-/

namespace Scratchpad.Run

open Log Sandbox Supervision

/-! ## Errands and how they fail -/

/-- What has to be done before the program of a run runs. -/
inductive Errand where
  | compile
  | write (part : Part)
  | start
deriving DecidableEq, Repr

/-- The errands of a run, in their order. -/
def Errand.way : List Errand := [.compile, .write .preamble, .write .entry, .start]

/-- The errand that is done on a leg. -/
def Leg.errand? : Leg → Option Errand
  | .begin _ => some .compile
  | .write part _ => some (.write part)
  | .spawn => some .start
  | _ => none

/-- What the user is told of a result, if it is a failure. -/
def failureOf {ε α : Type} (message : ε → String) : Except ε α → Option String
  | .error failure => some (message failure)
  | .ok _ => none

/-- How the errand of a leg fails. -/
def Leg.failure? (workshop : Workshop) (run : Nat) (job : Job) (s : Script) : Leg → Option String
  | .begin source => failureOf CompileFailure.message (composed workshop job.matchLines source)
  | .write part entry => failureOf Failure.message (s.write (part.path workshop) (part.contents entry)).1
  | .spawn => failureOf Failure.message (s.spawn run (job.launch workshop)).1
  | _ => none

/-- How the errand of a stride fails. -/
def Stride.failure? (workshop : Workshop) (t : Stride) : Option String :=
  t.leg.failure? workshop t.run t.job t.world.sandbox

section Legs

variable {workshop : Workshop} {run : Nat} {job : Job} {s : Script} {leg : Leg}

/-- Only an errand can fail. -/
theorem Leg.isSome_errand?_of_failure? {message : String}
    (h : leg.failure? workshop run job s = some message) : leg.errand?.isSome = true := by
  cases leg with
  | begin source | write part entry | spawn => rfl
  | _ => cases h

/-- Only on an errand something is done that stays. -/
theorem Leg.isSome_errand?_of_deed? {deed : Deed} (h : leg.deed? workshop run job s = some deed) :
    leg.errand?.isSome = true := by
  cases leg with
  | write part entry | spawn => rfl
  | _ => cases h

/-- An errand that fails leaves nothing behind. -/
theorem Leg.deed?_of_failure? {message : String} (h : leg.failure? workshop run job s = some message) :
    leg.deed? workshop run job s = none := by
  cases leg with
  | write part entry =>
    rw [failure?] at h
    rw [deed?]
    cases hwrite : (s.write (part.path workshop) (part.contents entry)).1 with
    | error failure => rfl
    | ok _ =>
      rw [hwrite] at h
      cases h
  | spawn =>
    rw [failure?] at h
    rw [deed?]
    cases hspawn : (s.spawn run (job.launch workshop)).1 with
    | error failure => rfl
    | ok p =>
      rw [hspawn] at h
      cases h
  | _ => rfl

/-- A file that is to be written is written unless that fails. -/
theorem Leg.deed?_write {part : Part} {entry : String}
    (h : (Leg.write part entry).failure? workshop run job s = none) :
    (Leg.write part entry).deed? workshop run job s =
      some (.write (part.path workshop) (part.contents entry)) := by
  rw [failure?] at h
  rw [deed?]
  cases hwrite : (s.write (part.path workshop) (part.contents entry)).1 with
  | error failure =>
    rw [hwrite] at h
    cases h
  | ok _ => rfl

/-- The errands that a run has been on before a leg, as long as any is ahead. -/
def Leg.errandsBefore? : Leg → Option (List Errand)
  | .begin _ => some []
  | .reach .preamble _ | .write .preamble _ => some [.compile]
  | .reach .entry _ | .write .entry _ => some [.compile, .write .preamble]
  | .reachSpawn | .spawn => some [.compile, .write .preamble, .write .entry]
  | _ => none

end Legs

/-! ## Trails -/

variable {workshop : Workshop} {run : Nat} {job : Job} {w w' : Supervision}

/-- The strides of a run on which it goes on an errand. -/
def trailOf (run : Nat) (strides : List Stride) : List Stride :=
  strides.filter fun t => t.run == run && t.leg.errand?.isSome

/-- The errands that a run goes on in a history. -/
def trail (workshop : Workshop) (turns : List Turn) (run : Nat) : List Stride :=
  trailOf run (itinerary workshop turns)

/-- A run has gone on its errands in their order, and only the last of them may have failed. -/
structure InOrder (workshop : Workshop) (trail : List Stride) : Prop where
  errands : trail.map (·.leg.errand?) <+: Errand.way.map some
  last : ∀ t ∈ trail.dropLast, t.failure? workshop = none

/-- A run that has an errand ahead has been on all errands before, and none has failed. -/
structure Follows (workshop : Workshop) (trail : List Stride) (leg : Leg) : Prop where
  inOrder : InOrder workshop trail
  before : ∀ errands, leg.errandsBefore? = some errands →
    trail.map (·.leg.errand?) = errands.map some ∧ ∀ t ∈ trail, t.failure? workshop = none

theorem inOrder_nil : InOrder workshop [] := ⟨List.nil_prefix, by simp⟩

/-- A run that has been on no errand is to compile first. -/
theorem follows_nil {leg : Leg} (hleg : leg.errandsBefore? = some []) : Follows workshop [] leg := by
  refine ⟨inOrder_nil, ?_⟩
  intro errands herrands
  obtain rfl : [] = errands := Option.some.inj (hleg.symm.trans herrands)
  exact ⟨rfl, by simp⟩

/-- Nothing is asked of a trail when no errand is ahead. -/
theorem InOrder.follows {ts : List Stride} (h : InOrder workshop ts) {leg : Leg}
    (hleg : leg.errandsBefore? = none) : Follows workshop ts leg :=
  ⟨h, fun errands herrands => by simp [hleg] at herrands⟩

/-- The errands before a leg are those before another one from which nothing has been done. -/
theorem Follows.of_eq {ts : List Stride} {leg leg' : Leg} (h : Follows workshop ts leg)
    (hleg : leg'.errandsBefore? = leg.errandsBefore?) : Follows workshop ts leg' :=
  ⟨h.inOrder, fun errands herrands => h.before errands (hleg ▸ herrands)⟩

/-- **One errand more.** A run that goes on its next errand is still in order. -/
theorem Follows.inOrder_append {ts : List Stride} {t : Stride} (h : Follows workshop ts t.leg)
    {errands : List Errand} (hbefore : t.leg.errandsBefore? = some errands) {errand : Errand}
    (herrand : t.leg.errand? = some errand) (hway : errands ++ [errand] <+: Errand.way) :
    InOrder workshop (ts ++ [t]) := by
  obtain ⟨hmap, hnone⟩ := h.before errands hbefore
  constructor
  · rw [List.map_append, List.map_singleton, hmap, herrand, ← List.map_singleton, ← List.map_append]
    exact hway.map some
  · rwa [List.dropLast_concat]

/-- A run whose errand has not failed may go on the next one. -/
theorem Follows.append {ts : List Stride} {t : Stride} (h : Follows workshop ts t.leg)
    {errands : List Errand} (hbefore : t.leg.errandsBefore? = some errands) {errand : Errand}
    (herrand : t.leg.errand? = some errand) (hway : errands ++ [errand] <+: Errand.way) {leg : Leg}
    (hdone : t.failure? workshop = none) (hleg : leg.errandsBefore? = some (errands ++ [errand])) :
    Follows workshop (ts ++ [t]) leg := by
  refine ⟨h.inOrder_append hbefore herrand hway, ?_⟩
  intro errands' herrands'
  obtain rfl : errands ++ [errand] = errands' := Option.some.inj (hleg.symm.trans herrands')
  obtain ⟨hmap, hnone⟩ := h.before errands hbefore
  constructor
  · rw [List.map_append, List.map_singleton, hmap, herrand, List.map_append, List.map_singleton]
  · refine List.forall_mem_append.mpr ⟨hnone, ?_⟩
    intro t' ht'
    rw [List.mem_singleton.mp ht']
    exact hdone

/-! ## A run on its way -/

/-- The trail of a run fits the leg that it is on. A run that rests is at a stage. -/
def OnTrail (workshop : Workshop) (run : Nat) (ts : List Stride) : Leg × Supervision → Prop
  | (.rest, w) => ∀ job, w.jobs[run]? = some job → Follows workshop ts job.stage.ahead
  | (leg, _) => Follows workshop ts leg

/-- A run that comes to a stage fits it if it fits the leg that is ahead. -/
theorem OnTrail.of_atStage {ts : List Stride} {stage : Stage} (h : Follows workshop ts stage.ahead) :
    OnTrail workshop run ts (.rest, w.atStage run stage) := by
  intro job hjob
  rw [stage_of_atStage hjob]
  exact h

/-- A run that is over goes on no errand any more. -/
theorem OnTrail.of_fail {ts : List Stride} (h : InOrder workshop ts) (w : Supervision) (message : String) :
    OnTrail workshop run ts (.rest, w.fail run job message) := of_atStage (h.follows rfl)

theorem OnTrail.of_abandon {ts : List Stride} (h : InOrder workshop ts) (w : Supervision) (p : Nat) :
    OnTrail workshop run ts (.rest, w.abandon run p) := of_atStage (h.follows rfl)

theorem trailOf_singleton {t : Stride} {errand : Errand} (h : t.leg.errand? = some errand) :
    trailOf t.run [t] = [t] := by
  simp [trailOf, h]

theorem trailOf_singleton_of_none {t : Stride} (h : t.leg.errand? = none) : trailOf run [t] = [] := by
  simp [trailOf, h]

/-- **Every leg leads along the way.** -/
theorem OnTrail.go {ts : List Stride} {leg : Leg} (h : OnTrail workshop run ts (leg, w)) :
    OnTrail workshop run (ts ++ trailOf run [⟨run, job, leg, w⟩]) (Supervision.go workshop run job w leg) := by
  cases leg with
  | begin source =>
    have hfollows : Follows workshop ts (Stride.leg ⟨run, job, .begin source, w⟩) := h
    rw [trailOf_singleton (t := ⟨run, job, .begin source, w⟩) rfl, Supervision.go]
    have hpast := hfollows.inOrder_append rfl rfl (by decide)
    split
    · exact .of_fail hpast w _
    · rename_i entry hcomposed
      refine hfollows.append rfl rfl (by decide) ?_ rfl
      rw [Stride.failure?, Leg.failure?, hcomposed, failureOf]
  | reach part entry =>
    have hfollows : Follows workshop ts (.reach part entry) := h
    rw [trailOf_singleton_of_none rfl, List.append_nil, Supervision.go]
    split
    · exact of_atStage (hfollows.inOrder.follows rfl)
    · split
      · exact of_atStage hfollows
      · cases part <;> exact hfollows.of_eq rfl
  | write part entry =>
    have hfollows : Follows workshop ts (Stride.leg ⟨run, job, .write part entry, w⟩) := h
    rw [trailOf_singleton (t := ⟨run, job, .write part entry, w⟩) rfl, Supervision.go]
    split
    · refine .of_fail ?_ { w with sandbox := _ } _
      cases part <;> exact hfollows.inOrder_append rfl rfl (by decide)
    · rename_i sandbox hwrite
      have hdone : Stride.failure? workshop ⟨run, job, .write part entry, w⟩ = none := by
        rw [Stride.failure?, Leg.failure?, hwrite, failureOf]
      cases part <;> exact hfollows.append rfl rfl (by decide) hdone rfl
  | reachSpawn =>
    have hfollows : Follows workshop ts .reachSpawn := h
    rw [trailOf_singleton_of_none rfl, List.append_nil, Supervision.go]
    split
    · exact of_atStage hfollows
    · exact hfollows.of_eq rfl
  | spawn =>
    have hfollows : Follows workshop ts (Stride.leg ⟨run, job, .spawn, w⟩) := h
    rw [trailOf_singleton (t := ⟨run, job, .spawn, w⟩) rfl, Supervision.go]
    have hpast := hfollows.inOrder_append rfl rfl (by decide)
    dsimp only
    split
    · exact .of_fail hpast { w with sandbox := _ } _
    · split
      · exact .of_abandon hpast { w with sandbox := _ } _
      · exact hpast.follows rfl
  | read p reader batcher nextFlush =>
    have hfollows : Follows workshop ts (.read p reader batcher nextFlush) := h
    have hpast := hfollows.inOrder
    rw [trailOf_singleton_of_none rfl, List.append_nil, Supervision.go]
    split
    · exact .of_abandon hpast w p
    · dsimp only
      split
      · exact of_atStage (hpast.follows rfl)
      · exact hpast.follows rfl
  | awaitExit p reader batcher =>
    have hfollows : Follows workshop ts (.awaitExit p reader batcher) := h
    have hpast := hfollows.inOrder
    rw [trailOf_singleton_of_none rfl, List.append_nil, Supervision.go]
    split
    · exact of_atStage (hpast.follows rfl)
    · exact hpast.follows rfl
  | close p reader batcher =>
    have hfollows : Follows workshop ts (.close p reader batcher) := h
    have hpast := hfollows.inOrder
    rw [trailOf_singleton_of_none rfl, List.append_nil, Supervision.go, close]
    dsimp only
    split
    · exact of_atStage (hpast.follows rfl)
    · exact .of_fail hpast { Supervision.deliverBatch _ run job _ with sandbox := _ } _
    · exact .of_fail hpast { Supervision.deliverBatch _ run job _ with sandbox := _ } _
  | rest =>
    rw [trailOf_singleton_of_none rfl, List.append_nil]
    exact h

theorem onTrail_depart {ts : List Stride} (hjob : w.jobs[run]? = some job)
    (h : Follows workshop ts job.stage.ahead) : OnTrail workshop run ts (depart run job w) := by
  have hstay : OnTrail workshop run ts (.rest, w) := by
    intro job' hjob'
    rwa [← Option.some.inj (hjob.symm.trans hjob')]
  rw [depart]
  split
  · rename_i source hs
    rwa [hs] at h
  · rename_i part entry hs
    rw [hs] at h
    split
    · exact OnTrail.of_atStage (h.inOrder.follows rfl)
    · split
      · exact hstay
      · cases part <;> exact Follows.of_eq h rfl
  · rename_i hs
    rw [hs] at h
    split
    · exact hstay
    · exact Follows.of_eq h rfl
  · exact h.inOrder.follows rfl
  · split
    · exact .of_abandon h.inOrder { w with sandbox := _ } _
    · split
      · exact hstay
      · exact h.inOrder.follows rfl
  · exact hstay

/-! ## Trails of a history -/

/-- The trail of every run fits its stage, and only runs that have been started leave a trail. -/
structure Trails (workshop : Workshop) (strides : List Stride) (w : Supervision) : Prop where
  started : ∀ t ∈ strides, t.run < w.jobs.length
  follows : ∀ run job, w.jobs[run]? = some job → Follows workshop (trailOf run strides) job.stage.ahead

theorem trailOf_append (run : Nat) (ts us : List Stride) :
    trailOf run (ts ++ us) = trailOf run ts ++ trailOf run us := List.filter_append ..

/-- Another run leaves no trail. -/
theorem trailOf_eq_nil {ts : List Stride} (h : ∀ t ∈ ts, t.run ≠ run) : trailOf run ts = [] := by
  refine List.filter_eq_nil_iff.mpr fun t ht => ?_
  simp [h t ht]

theorem run_of_mem_strides {t : Stride} (ht : t ∈ strides workshop w run) : t.run = run :=
  (stride_induction (P := fun _ => True) ht (fun _ => trivial) fun _ _ h => h).2.1

/-- The trail of a run that goes on is made longer by its errands on the way. -/
theorem onTrail_strides {ts : List Stride} (hjob : w.jobs[run]? = some job)
    (h : Follows workshop ts job.stage.ahead) :
    OnTrail workshop run (ts ++ trailOf run (strides workshop w run)) (.rest, resume workshop w run) := by
  rw [← List.nil_append (strides workshop w run)]
  refine strides_induction
    (P := fun log position => OnTrail workshop run (ts ++ trailOf run log) position) hjob ?_ ?_
  · simpa [trailOf] using onTrail_depart hjob h
  · intro log leg w' hw'
    rw [trailOf_append, ← List.append_assoc]
    exact hw'.go

namespace Trails

variable {ts : List Stride}

/-- Jobs that go on leave trails that fit. -/
theorem resume (h : Trails workshop ts w) (run : Nat) :
    Trails workshop (ts ++ strides workshop w run) (Supervision.resume workshop w run) := by
  have hspares : Spares run w (Supervision.resume workshop w run) := .resume w run
  have hlength : (Supervision.resume workshop w run).jobs.length = w.jobs.length := by
    obtain ⟨f, hf⟩ := hspares.jobs
    rw [hf, List.length_modify]
  constructor
  case started =>
    intro t ht
    rw [hlength]
    rcases List.mem_append.mp ht with ht | ht
    · exact h.started t ht
    · obtain ⟨hjob, -, -⟩ := stride_induction (P := fun _ => True) ht (fun _ => trivial) fun _ _ h => h
      rw [run_of_mem_strides ht]
      exact (List.getElem?_eq_some_iff.mp hjob).1
  case follows =>
    intro r job hjob
    rw [trailOf_append]
    by_cases hr : r = run
    · subst hr
      have hrun : r < w.jobs.length := hlength ▸ (List.getElem?_eq_some_iff.mp hjob).1
      have hjob' : w.jobs[r]? = some w.jobs[r] := List.getElem?_eq_getElem hrun
      exact onTrail_strides hjob' (h.follows r _ hjob') job hjob
    · have hnil : trailOf r (strides workshop w run) = [] := by
        apply trailOf_eq_nil
        intro t ht heq
        exact hr (heq.symm.trans (run_of_mem_strides ht))
      rw [hnil, List.append_nil]
      rw [hspares.jobs_of_ne hr] at hjob
      exact h.follows r job hjob

/-- What moves no job to another stage keeps the trails fitting. -/
theorem of_ahead (h : Trails workshop ts w) (hlength : w'.jobs.length = w.jobs.length)
    (hjobs : ∀ (r : Nat) (job' : Job), w'.jobs[r]? = some job' →
      ∃ job : Job, w.jobs[r]? = some job ∧ job'.stage.ahead = job.stage.ahead) : Trails workshop ts w' where
  started t ht := by
    rw [hlength]
    exact h.started t ht
  follows r job' hjob' := by
    obtain ⟨job, hjob, hahead⟩ := hjobs r job' hjob'
    rw [hahead]
    exact h.follows r job hjob

theorem of_jobs_eq (h : Trails workshop ts w) (hjobs : w'.jobs = w.jobs) : Trails workshop ts w' :=
  h.of_ahead (by rw [hjobs]) fun r job' hjob' => ⟨job', hjobs ▸ hjob', rfl⟩

theorem settle (h : Trails workshop ts w) :
    Trails workshop (ts ++ stridesReady workshop w) (Supervision.settle workshop w) := by
  have hsame : Trails workshop ts { w with ready := [] } := h.of_jobs_eq rfl
  exact said_induction (P := Trails workshop) hsame (fun _ _ run hw => hw.resume run) w.ready

/-- A job whose timer goes off reads on. -/
theorem elapseJob (h : Trails workshop ts w) (run time : Nat) :
    Trails workshop ts (Supervision.elapseJob workshop w run time) := by
  rcases elapseJob_cases workshop w run time with
    heq | ⟨job, p, reader, batcher, nextFlush, next, hjob, hs, heq⟩
  · rw [heq]
    exact h
  · rw [heq]
    refine h.of_ahead (by simp [atStage]) ?_
    intro r job' hjob'
    simp only [atStage, jobs_deliverBatch, List.getElem?_modify] at hjob'
    obtain ⟨job'', hjob'', rfl⟩ := Option.map_eq_some_iff.mp hjob'
    refine ⟨job'', hjob'', ?_⟩
    by_cases hr : run = r
    · subst hr
      obtain rfl : job = job'' := Option.some.inj (hjob.symm.trans hjob'')
      simp [hs, Stage.ahead]
    · simp [hr]

/-- A run that is started has been on no errand. -/
theorem start (h : Trails workshop ts w) (source text : String) (matchLines : Bool)
    (environment : Environment) : Trails workshop ts (w.start source text matchLines environment) := by
  constructor
  case started =>
    intro t ht
    have hlt := h.started t ht
    simp only [Supervision.start, jobs_wakeActive, List.length_append, List.length_singleton]
    omega
  case follows =>
    intro r job hjob
    rcases jobs_start_cases source text matchLines environment hjob with hjob | ⟨rfl, rfl⟩
    · exact h.follows r job hjob
    · have hnil : trailOf w.jobs.length ts = [] := by
        apply trailOf_eq_nil
        intro t ht heq
        have hstarted := h.started t ht
        omega
      rw [hnil]
      exact follows_nil rfl

theorem turn (h : Trails workshop ts w) (t : Turn) :
    Trails workshop (ts ++ stridesTurn workshop w t) (Supervision.turn workshop w t) := by
  rcases t.kinds with ht | rfl | ⟨ms, rfl⟩ | ⟨source, text, matchLines, environment, rfl⟩
  · obtain ⟨hjobs, -, -⟩ := quiet_turn workshop ht w
    rw [stridesTurn_of_isQuiet ht, List.append_nil]
    exact h.of_jobs_eq hjobs
  · exact h.settle
  · exact elapse_induction (P := Trails workshop (ts ++ stridesReady workshop w)) h.settle
      (fun w' run hw' => hw'.elapseJob run _) fun w' now hw' => hw'.of_jobs_eq rfl
  · have hnone : stridesTurn workshop w (.act (.start source text matchLines environment)) = [] := rfl
    rw [hnone, List.append_nil]
    exact h.start source text matchLines environment

end Trails

/-- **After any history the trail of every run fits its stage.** -/
theorem trails_after (workshop : Workshop) (turns : List Turn) :
    Trails workshop (itinerary workshop turns) (after workshop turns) := by
  have hinitial : Trails workshop [] initial := by
    constructor
    · simp
    · intro run job hjob
      simp [initial] at hjob
  exact said_induction (P := Trails workshop) hinitial (fun _ _ t hw => hw.turn t) turns

/-- **Every run goes on its errands in order, and only the last of them may have failed.** -/
theorem inOrder_trail (workshop : Workshop) (turns : List Turn) (run : Nat) :
    InOrder workshop (trail workshop turns run) := by
  have htrails := trails_after workshop turns
  cases hjob : (after workshop turns).jobs[run]? with
  | some job => exact (htrails.follows run job hjob).inOrder
  | none =>
    have hnil : trail workshop turns run = [] := by
      apply trailOf_eq_nil
      rintro t ht rfl
      have hlt := htrails.started t ht
      have hle := List.getElem?_eq_none_iff.mp hjob
      omega
    rw [hnil]
    exact inOrder_nil

/-! ## Errands that fail -/

/-- What a run does in a history that stays. -/
def deedsOf (workshop : Workshop) (turns : List Turn) (run : Nat) : List Deed :=
  ((itinerary workshop turns).filter (·.run == run)).filterMap (Stride.deed? workshop)

/-- What a run leaves behind that comes as far as an errand, if this fails. -/
def Errand.Leaves (workshop : Workshop) (deeds : List Deed) : Errand → Prop
  | .compile | .write .preamble => deeds = []
  | .write .entry => deeds = [.write preambleFile preamble]
  | .start => ∃ entry,
    deeds = [.write preambleFile preamble, .write workshop.settings.entryFile entry]

/-- An errand that has failed is the last one, and those before have not failed. -/
theorem InOrder.exists_init {ts : List Stride} (h : InOrder workshop ts) {t : Stride} (ht : t ∈ ts)
    {message : String} (hfailure : t.failure? workshop = some message) :
    ∃ init, ts = init ++ [t] ∧ ∀ t' ∈ init, t'.failure? workshop = none := by
  rcases List.eq_nil_or_concat' ts with rfl | ⟨init, last, rfl⟩
  · cases ht
  · have hnone := h.last
    rw [List.dropLast_concat] at hnone
    rcases List.mem_append.mp ht with ht | ht
    · rw [hnone t ht] at hfailure
      cases hfailure
    · obtain rfl := List.mem_singleton.mp ht
      exact ⟨init, rfl, hnone⟩

/-- The errands before one are known from it. -/
theorem errands_of_prefix {errands : List (Option Errand)} {errand : Errand}
    (h : errands ++ [some errand] <+: Errand.way.map some) :
    errands = (Errand.way.takeWhile (· != errand)).map some := by
  rcases errands with _ | ⟨a, _ | ⟨b, _ | ⟨c, _ | ⟨d, rest⟩⟩⟩⟩ <;>
    rcases errand with _ | (_ | _) | _ <;> simp_all [Errand.way, List.cons_prefix_cons]

/-- What a run does is done on its errands. -/
theorem deedsOf_eq (workshop : Workshop) (turns : List Turn) (run : Nat) :
    deedsOf workshop turns run = (trail workshop turns run).filterMap (Stride.deed? workshop) := by
  rw [deedsOf, trail, trailOf, List.filterMap_filter, List.filterMap_filter]
  apply List.filterMap_congr
  intro t _
  cases hdeed : t.deed? workshop with
  | none => simp
  | some deed =>
    have herrand : t.leg.errand?.isSome = true := Leg.isSome_errand?_of_deed? hdeed
    simp [herrand]

/-- On the way to the first file nothing is done that stays. -/
theorem Stride.deed?_of_compile {t : Stride} (h : t.leg.errand? = some .compile) :
    t.deed? workshop = none := by
  obtain ⟨run, job, leg, w⟩ := t
  cases leg with
  | begin source => rfl
  | _ => cases h

/-- A file is written unless that fails. -/
theorem Stride.exists_deed?_of_write {t : Stride} {part : Part} (h : t.leg.errand? = some (.write part))
    (hnone : t.failure? workshop = none) :
    ∃ entry, t.deed? workshop = some (.write (part.path workshop) (part.contents entry)) := by
  obtain ⟨run, job, leg, w⟩ := t
  cases leg with
  | write part' entry =>
    obtain rfl : part' = part := by simpa [Leg.errand?] using h
    exact ⟨entry, Leg.deed?_write hnone⟩
  | _ => cases h

/-- **What a run leaves behind when one of its errands fails** is what it did on the errands before. -/
theorem deedsOf_of_failure {turns : List Turn} {t : Stride} (ht : t ∈ itinerary workshop turns)
    {message : String} (hfailure : t.failure? workshop = some message) {errand : Errand}
    (herrand : t.leg.errand? = some errand) : errand.Leaves workshop (deedsOf workshop turns t.run) := by
  have hmem : t ∈ trail workshop turns t.run := by
    simp [trail, trailOf, ht, herrand]
  obtain ⟨init, htrail, hnone⟩ := (inOrder_trail workshop turns t.run).exists_init hmem hfailure
  have herrands := (inOrder_trail workshop turns t.run).errands
  rw [htrail, List.map_append, List.map_singleton, herrand] at herrands
  have hinit : init.map (·.leg.errand?) = (Errand.way.takeWhile (· != errand)).map some :=
    errands_of_prefix herrands
  have hlast : t.deed? workshop = none := Leg.deed?_of_failure? hfailure
  have hdeeds : deedsOf workshop turns t.run = init.filterMap (Stride.deed? workshop) := by
    rw [deedsOf_eq, htrail, List.filterMap_append, List.filterMap_cons_none hlast, List.filterMap_nil,
      List.append_nil]
  rw [hdeeds]
  rcases errand with _ | (_ | _) | _
  · obtain rfl : init = [] := List.map_eq_nil_iff.mp hinit
    rfl
  · obtain ⟨a, _, rfl, ha, hrest⟩ := List.map_eq_cons_iff.mp hinit
    obtain rfl := List.map_eq_nil_iff.mp hrest
    simp [Errand.Leaves, Stride.deed?_of_compile ha]
  · obtain ⟨a, _, rfl, ha, hrest⟩ := List.map_eq_cons_iff.mp hinit
    obtain ⟨b, _, rfl, hb, hrest⟩ := List.map_eq_cons_iff.mp hrest
    obtain rfl := List.map_eq_nil_iff.mp hrest
    obtain ⟨_, hb'⟩ := Stride.exists_deed?_of_write hb (hnone b (by simp))
    simp [Errand.Leaves, Stride.deed?_of_compile ha, hb', Part.path, Part.contents]
  · obtain ⟨a, _, rfl, ha, hrest⟩ := List.map_eq_cons_iff.mp hinit
    obtain ⟨b, _, rfl, hb, hrest⟩ := List.map_eq_cons_iff.mp hrest
    obtain ⟨c, _, rfl, hc, hrest⟩ := List.map_eq_cons_iff.mp hrest
    obtain rfl := List.map_eq_nil_iff.mp hrest
    obtain ⟨_, hb'⟩ := Stride.exists_deed?_of_write hb (hnone b (by simp))
    obtain ⟨entry, hc'⟩ := Stride.exists_deed?_of_write hc (hnone c (by simp))
    exact ⟨entry, by simp [Stride.deed?_of_compile ha, hb', hc', Part.path, Part.contents]⟩

end Scratchpad.Run
