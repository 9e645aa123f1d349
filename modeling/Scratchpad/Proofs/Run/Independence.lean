import Scratchpad.Proofs.Run.Progress
import Scratchpad.Proofs.Run.Sequel

/-!
# What is past has no influence

A world that has settled with nobody in the slot, no gate held and no failure set is at rest: the jobs of all
runs have ended, nobody waits, and no timer is going to go off. So from the next start on it goes on as a new
world does, whatever has happened in it and however its runs have ended.

## Main statements

* `atRest_after`: a world that has settled with nobody in the slot is at rest.
* `sequel_after`: from the next start on the world goes on as a new one does.
* `history_independent`: what can be observed of that.
-/

namespace Scratchpad.Run

open Log Sandbox Supervision

variable {workshop : Workshop}

/-- **A world that has settled with nobody in the slot is at rest**, if no gate is held and nothing is going
to fail. -/
theorem atRest_after {turns : List Turn} (hready : (after workshop turns).ready = [])
    (hidle : (after workshop turns).slot.phase = .idle) (hfree : (after workshop turns).sandbox.IsFree)
    (hwrite : (after workshop turns).sandbox.writeFailure = none)
    (hspawn : (after workshop turns).sandbox.spawnFailure = none) : (after workshop turns).AtRest := by
  obtain ⟨log, hworld, -⟩ := sound_after workshop turns
  have hactive : (after workshop turns).slot.active = none := by
    rw [Option.eq_none_iff_forall_ne_some]
    intro run ha
    obtain ⟨moves, -, -, hslot⟩ := exists_honest_moves workshop turns
    have hshows : Slot.Shows (Slot.chronicle moves) (after workshop turns).slot :=
      hslot ▸ Slot.shows_reached moves
    exact (hshows.active run ha).1 hidle
  constructor
  case runs => exact hworld.length_jobs.symm
  case active => exact hactive
  case ready => exact hready
  case ended =>
    intro job hmem
    obtain ⟨run, hjob⟩ := List.mem_iff_getElem?.mp hmem
    rcases reads_or_ended hready hfree hjob with ⟨_, _, _, _, _, -, ha, -⟩ | hended
    · -- a job that reads
      rw [hactive] at ha
      cases ha
    · exact hended
  case gates =>
    intro point
    have hheld := hfree point
    have hcallers := hworld.gates point hheld
    generalize (after workshop turns).sandbox.gate point = gate at hheld hcallers ⊢
    obtain ⟨isHeld, callers⟩ := gate
    exact congrArg₂ Gate.mk hheld hcallers
  case refusals => exact refusals_after workshop turns
  case writeFailure => exact hwrite
  case spawnFailure => exact hspawn

/-- **From the next start on the world goes on as a new one does**, as long as nobody else begins to watch it
and nobody leaves. -/
theorem sequel_after {earlier : List Turn} (h : (after workshop earlier).AtRest) (source text : String)
    (matchLines : Bool) (environment : Environment) {later : List Turn}
    (hlater : ∀ t ∈ later, t.isAboutSubscribers = false) :
    Sequel (after workshop earlier)
      (after workshop (.act (.start source text matchLines environment) :: later))
      (after workshop (earlier ++ .act (.start source text matchLines environment) ::
        later.map (.readdress (after workshop earlier).sandbox.processes.length))) := by
  induction later using List.reverseRecOn with
  | nil =>
    rw [List.map_nil, after_append_singleton]
    exact Sequel.first h source text matchLines environment
  | append_singleton later t ih =>
    obtain ⟨hinit, hlast⟩ := List.forall_mem_append.mp hlater
    rw [← List.cons_append, after_append_singleton, List.map_append, List.map_singleton, ← List.cons_append,
      ← List.append_assoc, after_append_singleton]
    exact (ih hinit).turn (hlast t List.mem_cons_self)

/-- **What is past has no influence.** Take any world that has settled, in which nobody has the slot, no gate
is held, and neither a file nor a program is going to fail. Start a run, and do whatever you like, except that
nobody else begins to watch and nobody leaves, and that only processes are told what to do that have been
started since.

Then at every moment the slot shows the same phase, the same output and the same last outcome as after the
same in a new world, and everyone who watched it is told the same. The same programs have been started
since, and their processes are the same, killed or not. Only runs, generations, processes and moments are
counted from where the earlier world was left. -/
theorem history_independent {earlier : List Turn} (hready : (after workshop earlier).ready = [])
    (hidle : (after workshop earlier).slot.phase = .idle) (hfree : (after workshop earlier).sandbox.IsFree)
    (hwrite : (after workshop earlier).sandbox.writeFailure = none)
    (hspawn : (after workshop earlier).sandbox.spawnFailure = none) (source text : String)
    (matchLines : Bool) (environment : Environment) {later : List Turn}
    (hlater : ∀ t ∈ later, t.isAboutSubscribers = false) :
    let past := after workshop earlier
    let first : Turn := .act (.start source text matchLines environment)
    let v := after workshop (first :: later)
    let w := after workshop (earlier ++ first :: later.map (.readdress past.sandbox.processes.length))
    w.slot.phase = v.slot.phase ∧ w.slot.output = v.slot.output ∧
      w.slot.lastOutcome = v.slot.lastOutcome ∧
      w.slot.active = v.slot.active.map (past.jobs.length + ·) ∧
      w.slot.generation = past.slot.generation + v.slot.generation ∧ w.now = past.now + v.now ∧
      (∃ log, v.slot.subscribers = [⟨true, log⟩] ∧ w.slot.subscribers =
        past.slot.subscribers.map (Slot.hear (log.map (.rename (past.jobs.length + ·))))) ∧
      w.sandbox.launches = past.sandbox.launches ++ v.sandbox.launches ∧
      w.sandbox.processes =
        past.sandbox.processes ++ v.sandbox.processes.map (·.renumber past.jobs.length) := by
  intro past first v w
  have hrest : past.AtRest := atRest_after hready hidle hfree hwrite hspawn
  have hsequel : Sequel past v w := sequel_after hrest source text matchLines environment hlater
  have hactive := hsequel.slot.active
  have hsubscribers := hsequel.slot.subscribers
  rw [hrest.runs] at hactive hsubscribers
  exact ⟨hsequel.slot.phase, hsequel.slot.output, hsequel.slot.lastOutcome, hactive,
    hsequel.slot.generation, hsequel.now, hsubscribers, hsequel.sandbox.launches,
    hsequel.sandbox.processes⟩

/-- A run ends by itself, one fails, and one is killed by the next, which is stopped. Then two more are
started. The first of them is killed and the second one ends with a code. -/
theorem history_independent_fifth :
    let workshop : Workshop := ⟨⟨50, 2, "node", "main.mjs"⟩, fun source => .ok source⟩
    let earlier : List Turn :=
      [.act (.start "a" "x" false .empty), .settle, .act (.emit 0 "left"), .act (.exit 0 0), .settle,
        .act (.failSpawn "no"), .act (.start "b" "y" false .empty), .settle,
        .act (.start "c" "z" false .empty), .settle, .act (.start "d" "z" false .empty), .settle,
        .act (.emit 1 "late\n"), .act .stop, .settle, .act (.advance 70)]
    let later : List Turn :=
      [.settle, .act (.emit 0 "one\ntwo"), .settle, .act (.advance 50), .settle,
        .act (.start "f" "w" true .empty), .settle, .act (.emit 1 "three"), .act (.exit 1 3), .settle]
    let afresh : List Turn := .act (.start "e" "v" false .empty) :: later
    let whole : List Turn := earlier ++ .act (.start "e" "v" false .empty) ::
      later.map (.readdress (after workshop earlier).sandbox.processes.length)
    (after workshop earlier).jobs.length = 4 ∧ (after workshop earlier).sandbox.processes.length = 3 ∧
      (after workshop earlier).slot.generation = 6 ∧ (after workshop earlier).now = 70 ∧
      (after workshop earlier).slot.lastOutcome = some .killed ∧
      (after workshop afresh).slot.lastOutcome = some (.completed 3) ∧
      (after workshop afresh).sandbox.processes.map (·.isKilled) = [true, false] ∧
      (after workshop whole).slot.lastOutcome = (after workshop afresh).slot.lastOutcome ∧
      (after workshop whole).slot.output = (after workshop afresh).slot.output ∧
      (after workshop whole).sandbox.processes = (after workshop earlier).sandbox.processes ++
        (after workshop afresh).sandbox.processes.map (·.renumber (after workshop earlier).jobs.length) := by
  intro workshop earlier later afresh whole
  subst whole afresh
  have hready : (after workshop earlier).ready = [] := by decide +kernel
  have hidle : (after workshop earlier).slot.phase = .idle := by decide +kernel
  have hfree : (after workshop earlier).sandbox.IsFree := by
    intro point
    cases point <;> decide +kernel
  have hwrite : (after workshop earlier).sandbox.writeFailure = none := by decide +kernel
  have hspawn : (after workshop earlier).sandbox.spawnFailure = none := by decide +kernel
  have hlater : ∀ t ∈ later, t.isAboutSubscribers = false := by decide +kernel
  obtain ⟨-, houtput, houtcome, -, -, -, -, -, hprocesses⟩ :=
    history_independent hready hidle hfree hwrite hspawn "e" "v" false .empty hlater
  have hpast : (after workshop earlier).jobs.length = 4 ∧
      (after workshop earlier).sandbox.processes.length = 3 ∧
      (after workshop earlier).slot.generation = 6 ∧ (after workshop earlier).now = 70 ∧
      (after workshop earlier).slot.lastOutcome = some .killed := by decide +kernel
  obtain ⟨hjobs, hlength, hgeneration, hnow, hlast⟩ := hpast
  refine ⟨hjobs, hlength, hgeneration, hnow, hlast, ?_, ?_, houtcome, houtput, hprocesses⟩
  · decide +kernel
  · decide +kernel

end Scratchpad.Run
