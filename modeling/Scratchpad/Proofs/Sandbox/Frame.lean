import Mathlib.Data.List.Basic
import Scratchpad.Sandbox.Script

/-!
# What an operation of the sandbox leaves alone

A file that is written, a program that is started, a gate, a process: each operation of the sandbox is
about one of them, and leaves the gates or the processes as they are.

## Main statements

* `Script.gate_modifyGate`, `Script.getElem?_modifyProcess`: what changes when one gate or one process does.
* `Script.gate_write`, `Script.processes_write`: a file that is written leaves gates and processes alone.
* `Script.spawn_cases`: what starting a program comes to.
-/

namespace Scratchpad.Sandbox

namespace Script

variable (s : Script)

/-! ## Gates -/

section Gate

variable (point : Point) (f : Gate → Gate)

theorem gate_modifyGate (point' : Point) :
    (s.modifyGate point f).gate point' = if point' = point then f (s.gate point) else s.gate point' := by
  cases point <;> cases point' <;> rfl

@[simp] theorem processes_modifyGate : (s.modifyGate point f).processes = s.processes := by
  cases point <;> rfl

theorem gate_await (run : Nat) (point' : Point) :
    (s.await point run).gate point' =
      if point' = point then
        ⟨(s.gate point).isHeld, (s.gate point).callers ++ [run]⟩
      else s.gate point' := gate_modifyGate ..

@[simp] theorem processes_await (run : Nat) : (s.await point run).processes = s.processes :=
  processes_modifyGate ..

theorem gate_leave (run : Nat) (point' : Point) :
    (s.leave point run).gate point' =
      if point' = point then
        ⟨(s.gate point).isHeld, (s.gate point).callers.filter (· != run)⟩
      else s.gate point' := gate_modifyGate ..

@[simp] theorem processes_leave (run : Nat) : (s.leave point run).processes = s.processes :=
  processes_modifyGate ..

theorem gate_hold (point' : Point) :
    (s.hold point).gate point' =
      if point' = point then ⟨true, (s.gate point).callers⟩ else s.gate point' := gate_modifyGate ..

@[simp] theorem processes_hold : (s.hold point).processes = s.processes := processes_modifyGate ..

theorem gate_release (point' : Point) :
    (s.release point).gate point' = if point' = point then ⟨false, []⟩ else s.gate point' :=
  gate_modifyGate ..

@[simp] theorem processes_release : (s.release point).processes = s.processes :=
  processes_modifyGate ..

end Gate

/-! ## Processes -/

section Process

variable (p : Nat) (f : Process → Process)

@[simp] theorem gate_modifyProcess : (s.modifyProcess p f).gate = s.gate := by
  funext point
  cases point <;> rfl

theorem getElem?_modifyProcess (p' : Nat) :
    (s.modifyProcess p f).processes[p']? =
      if p = p' then s.processes[p']?.map f else s.processes[p']? := by
  rw [modifyProcess, List.getElem?_modify]
  split <;> simp

@[simp] theorem length_modifyProcess : (s.modifyProcess p f).processes.length = s.processes.length :=
  List.length_modify ..

variable {s p f} in
/-- What is done with a process depends on the process alone. -/
theorem modifyProcess_congr {q : Process} {g : Process → Process} (hq : s.processes[p]? = some q)
    (hfg : f q = g q) : s.modifyProcess p f = s.modifyProcess p g := by
  have hmodify : s.processes.modify p f = s.processes.modify p g := by
    apply List.ext_getElem?
    intro p'
    rw [List.getElem?_modify, List.getElem?_modify]
    by_cases hp : p = p'
    · simp [← hp, hq, hfg]
    · simp [hp]
  rw [modifyProcess, modifyProcess, hmodify]

variable {s p f} in
/-- A process that stays as it is leaves the sandbox as it is. -/
theorem modifyProcess_of_eq {q : Process} (hq : s.processes[p]? = some q) (hf : f q = q) :
    s.modifyProcess p f = s := by
  rw [modifyProcess_congr (g := id) hq hf, modifyProcess, List.modify_id]

/-- A process that can be told what to do goes on. -/
theorem controlled?_eq_some {q : Process} :
    s.controlled? p = some q ↔ s.processes[p]? = some q ∧ q.control = .alive := by
  rw [controlled?, Option.filter_eq_some_iff, decide_eq_true_iff]

end Process

/-! ## Files and programs -/

/-- A file is written, or it is not. Neither gates nor processes change. -/
@[simp] theorem gate_write (path contents : String) : (s.write path contents).2.gate = s.gate := by
  funext point
  rw [write]
  split
  · cases point <;> rfl
  · split <;> cases point <;> rfl

@[simp] theorem processes_write (path contents : String) :
    (s.write path contents).2.processes = s.processes := by
  rw [write]
  split
  · rfl
  · split <;> rfl

@[simp] theorem gate_spawn (run : Nat) (launch : Launch) : (s.spawn run launch).2.gate = s.gate := by
  funext point
  rw [spawn]
  split <;> cases point <;> rfl

/-- A program is started as the next process, or no process is added. -/
theorem spawn_cases (run : Nat) (launch : Launch) :
    (∃ failure, (s.spawn run launch).1 = .error failure ∧
      (s.spawn run launch).2.processes = s.processes) ∨
    ((s.spawn run launch).1 = .ok s.processes.length ∧
      (s.spawn run launch).2.processes = s.processes ++ [⟨run, [], .alive, false, true⟩]) := by
  rw [spawn]
  split
  · exact .inl ⟨_, rfl, rfl⟩
  · exact .inr ⟨rfl, rfl⟩

end Script

end Scratchpad.Sandbox
