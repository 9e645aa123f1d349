import Scratchpad.Proofs.Basic
import Scratchpad.Proofs.Sandbox.Frame
import Scratchpad.Proofs.Sandbox.Record

/-!
# A sandbox that goes on from an earlier one

A sandbox in which nobody waits and in which nothing is going to fail goes on as an empty one does.
Processes have higher numbers in it, their owners and those who wait at gates are later runs, and files that
have not been written since hold what they held.

## Main definitions

* `Gate.renumber`, `Process.renumber`: a gate and a process when there have been runs before.
* `Script.Sequel`: a sandbox goes on from an earlier one as another one does from nothing.

## Main statements

* `Script.Sequel.first`: a sandbox at rest goes on as an empty one does.
* `Script.Sequel.write`, `Script.Sequel.spawn`, `Script.Sequel.modifyProcess`: what is done in both alike.
-/

namespace Scratchpad.Sandbox

/-- A gate when there have been runs before. -/
def Gate.renumber (runs : Nat) (g : Gate) : Gate := { g with callers := g.callers.map (runs + ·) }

/-- A process when there have been runs before. -/
def Process.renumber (runs : Nat) (q : Process) : Process := { q with owner := runs + q.owner }

theorem Gate.contains_callers_renumber (runs : Nat) (g : Gate) (run : Nat) :
    (g.renumber runs).callers.contains (runs + run) = g.callers.contains run := by
  rw [Bool.eq_iff_iff, List.contains_iff_mem, List.contains_iff_mem, renumber]
  exact List.mem_map_of_injective fun _ _ => Nat.add_left_cancel

namespace Script

variable {runs : Nat} {past s t : Script}

/-- A sandbox goes on from an earlier one, in which there have been some runs, as another one does from
nothing. -/
structure Sequel (runs : Nat) (past s t : Script) : Prop where
  launches : t.launches = past.launches ++ s.launches
  processes : t.processes = past.processes ++ s.processes.map (·.renumber runs)
  files : ∀ path, t.file? path = (s.file? path).or (past.file? path)
  refusals : t.refusals = s.refusals
  writeFailure : t.writeFailure = s.writeFailure
  spawnFailure : t.spawnFailure = s.spawnFailure
  gate : ∀ point, t.gate point = (s.gate point).renumber runs

namespace Sequel

/-- **A sandbox at rest goes on as an empty one does.** -/
theorem first (hgates : ∀ point, past.gate point = ⟨false, []⟩) (hrefusals : past.refusals = [])
    (hwrite : past.writeFailure = none) (hspawn : past.spawnFailure = none) :
    Sequel runs past empty past where
  launches := (List.append_nil _).symm
  processes := (List.append_nil _).symm
  files _ := rfl
  refusals := hrefusals
  writeFailure := hwrite
  spawnFailure := hspawn
  gate point := by
    rw [hgates]
    cases point <;> rfl

theorem getElem?_processes (h : Sequel runs past s t) (p : Nat) :
    t.processes[past.processes.length + p]? = s.processes[p]?.map (·.renumber runs) := by
  rw [h.processes, getElem?_append_map]

theorem controlled?_eq (h : Sequel runs past s t) (p : Nat) :
    t.controlled? (past.processes.length + p) = (s.controlled? p).map (·.renumber runs) := by
  rw [controlled?, controlled?, h.getElem?_processes]
  cases s.processes[p]? with
  | none => rfl
  | some q =>
    rw [Option.map_some, Option.filter_some, Option.filter_some, Process.renumber]
    split <;> rfl

/-! ## What is done in both -/

/-- What is done with a gate in both is done alike. -/
theorem modifyGate (h : Sequel runs past s t) (point : Point) {f f' : Gate → Gate}
    (hf : ∀ g, f' (g.renumber runs) = (f g).renumber runs) :
    Sequel runs past (s.modifyGate point f) (t.modifyGate point f') := by
  have hgate : ∀ point', (t.modifyGate point f').gate point' =
      ((s.modifyGate point f).gate point').renumber runs := by
    intro point'
    rw [gate_modifyGate, gate_modifyGate, h.gate, h.gate, hf]
    split <;> rfl
  cases point <;>
    exact ⟨h.launches, h.processes, h.files, h.refusals, h.writeFailure, h.spawnFailure, hgate⟩

theorem await (h : Sequel runs past s t) (point : Point) (run : Nat) :
    Sequel runs past (s.await point run) (t.await point (runs + run)) := by
  refine h.modifyGate point fun g => ?_
  rw [Gate.renumber, Gate.renumber, List.map_append, List.map_singleton]

theorem leave (h : Sequel runs past s t) (point : Point) (run : Nat) :
    Sequel runs past (s.leave point run) (t.leave point (runs + run)) := by
  refine h.modifyGate point fun g => ?_
  have hne : ((· != runs + run) ∘ (runs + ·)) = (· != run) := by
    funext caller
    rw [Function.comp_apply, bne, bne, Bool.not_inj_iff, Bool.eq_iff_iff, beq_iff_eq, beq_iff_eq,
      Nat.add_left_cancel_iff]
  rw [Gate.renumber, Gate.renumber, List.filter_map, hne]

theorem hold (h : Sequel runs past s t) (point : Point) :
    Sequel runs past (s.hold point) (t.hold point) := h.modifyGate point fun _ => rfl

theorem release (h : Sequel runs past s t) (point : Point) :
    Sequel runs past (s.release point) (t.release point) := h.modifyGate point fun _ => rfl

theorem failWrite (h : Sequel runs past s t) (reason : String) :
    Sequel runs past (s.failWrite reason) (t.failWrite reason) :=
  ⟨h.launches, h.processes, h.files, h.refusals, rfl, h.spawnFailure, fun point => by
    have hgate := h.gate point
    cases point <;> exact hgate⟩

theorem failSpawn (h : Sequel runs past s t) (reason : String) :
    Sequel runs past (s.failSpawn reason) (t.failSpawn reason) :=
  ⟨h.launches, h.processes, h.files, h.refusals, h.writeFailure, rfl, fun point => by
    have hgate := h.gate point
    cases point <;> exact hgate⟩

/-- What is done with a process in both is done alike. -/
theorem modifyProcess (h : Sequel runs past s t) (p : Nat) {f f' : Process → Process}
    (hf : ∀ q, f' (q.renumber runs) = (f q).renumber runs) :
    Sequel runs past (s.modifyProcess p f) (t.modifyProcess (past.processes.length + p) f') := by
  refine ⟨h.launches, ?_, h.files, h.refusals, h.writeFailure, h.spawnFailure, fun point => ?_⟩
  · rw [Script.modifyProcess, h.processes]
    exact modify_append_map past.processes s.processes p hf
  · rw [gate_modifyProcess, gate_modifyProcess]
    exact h.gate point

theorem kill (h : Sequel runs past s t) (p : Nat) :
    Sequel runs past (s.kill p) (t.kill (past.processes.length + p)) :=
  h.modifyProcess p fun q => by
    rw [Process.renumber]
    dsimp only
    split <;> rfl

theorem dismiss (h : Sequel runs past s t) (p : Nat) :
    Sequel runs past (s.dismiss p) (t.dismiss (past.processes.length + p)) :=
  h.modifyProcess p fun _ => rfl

theorem markRead (h : Sequel runs past s t) (p : Nat) :
    Sequel runs past (s.markRead p) (t.markRead (past.processes.length + p)) :=
  h.modifyProcess p fun _ => rfl

/-- **A file can be written in both or in neither.** -/
theorem write (h : Sequel runs past s t) (path contents : String) :
    (t.write path contents).1 = (s.write path contents).1 ∧
      Sequel runs past (s.write path contents).2 (t.write path contents).2 := by
  have hgate : ∀ point, (t.write path contents).2.gate point =
      ((s.write path contents).2.gate point).renumber runs := by
    intro point
    rw [gate_write, gate_write]
    exact h.gate point
  cases hw : s.writeFailure with
  | some reason =>
    simp only [Script.write, h.writeFailure, hw] at hgate ⊢
    exact ⟨trivial, h.launches, h.processes, h.files, h.refusals, rfl, h.spawnFailure, hgate⟩
  | none =>
    cases hr : s.refusals.lookup path with
    | some failure =>
      simp only [Script.write, h.writeFailure, h.refusals, hw, hr]
      exact ⟨trivial, h⟩
    | none =>
      have hfile : ∀ path', (t.write path contents).2.file? path' =
          ((s.write path contents).2.file? path').or (past.file? path') := by
        intro path'
        have hs : s.write path contents = (.ok (), (s.write path contents).2) := by
          simp only [Script.write, hw, hr]
        have ht : t.write path contents = (.ok (), (t.write path contents).2) := by
          simp only [Script.write, h.writeFailure, h.refusals, hw, hr]
        rw [file?_of_write hs, file?_of_write ht, h.files]
        split <;> rfl
      simp only [Script.write, h.writeFailure, h.refusals, hw, hr] at hgate hfile ⊢
      exact ⟨trivial, h.launches, h.processes, hfile, rfl, rfl, h.spawnFailure, hgate⟩

/-- **A program that is started in both is the next process in both.** -/
theorem spawn (h : Sequel runs past s t) (run : Nat) (launch : Launch) :
    (t.spawn (runs + run) launch).1 = (s.spawn run launch).1.map (past.processes.length + ·) ∧
      Sequel runs past (s.spawn run launch).2 (t.spawn (runs + run) launch).2 := by
  have hgate : ∀ point, (t.spawn (runs + run) launch).2.gate point =
      ((s.spawn run launch).2.gate point).renumber runs := by
    intro point
    rw [gate_spawn, gate_spawn]
    exact h.gate point
  cases hs : s.spawnFailure with
  | some reason =>
    simp only [Script.spawn, h.spawnFailure, hs] at hgate ⊢
    exact ⟨rfl, h.launches, h.processes, h.files, h.refusals, h.writeFailure, rfl, hgate⟩
  | none =>
    have hlength : t.processes.length = past.processes.length + s.processes.length := by
      rw [h.processes, List.length_append, List.length_map]
    have hlaunches : t.launches ++ [launch] = past.launches ++ (s.launches ++ [launch]) := by
      rw [h.launches, List.append_assoc]
    have hprocesses : t.processes ++ [⟨runs + run, [], .alive, false, true⟩] = past.processes ++
        (s.processes ++ [(⟨run, [], .alive, false, true⟩ : Process)]).map (·.renumber runs) := by
      rw [h.processes, List.map_append, List.append_assoc]
      rfl
    simp only [Script.spawn, h.spawnFailure, hs] at hgate ⊢
    exact ⟨congrArg Except.ok hlength, hlaunches, hprocesses, h.files, h.refusals, h.writeFailure, rfl,
      hgate⟩

end Sequel

end Script

end Scratchpad.Sandbox
