import Scratchpad.Proofs.Basic
import Scratchpad.Proofs.Sandbox.Frame

/-!
# Sandboxes that differ in some processes

Two sandboxes are alike but for some processes if they have the same files, launches, gates and failures,
and as many processes with the same owners, and if every other process is the same in both. Whatever is
done in both alike, they stay alike, and it gives the same answers.

## Main definitions

* `Script.Alike`: two sandboxes are alike but for some processes.

## Main statements

* `Script.Alike.write`, `Script.Alike.spawn`, `Script.Alike.modifyProcess`: what is done in both alike.
* `Script.Alike.modify_left`: what is done in one of them with a process that may differ.
-/

namespace Scratchpad.Sandbox

namespace Script

/-- Two sandboxes are alike but for some processes, which have the same owners all the same. -/
def Alike (ps : List Nat) (s s' : Script) : Prop :=
  ∃ processes, s' = { s with processes := processes } ∧
    processes.map (·.owner) = s.processes.map (·.owner) ∧
    ∀ p, p ∉ ps → processes[p]? = s.processes[p]?

namespace Alike

variable {ps : List Nat} {s s' : Script}

theorem refl (ps : List Nat) (s : Script) : Alike ps s s := ⟨s.processes, rfl, rfl, fun _ _ => rfl⟩

theorem symm (h : Alike ps s s') : Alike ps s' s := by
  obtain ⟨processes, rfl, howners, hoff⟩ := h
  exact ⟨s.processes, rfl, howners.symm, fun p hp => (hoff p hp).symm⟩

theorem mono (h : Alike ps s s') {ps' : List Nat} (hps : ps ⊆ ps') : Alike ps' s s' := by
  obtain ⟨processes, rfl, howners, hoff⟩ := h
  exact ⟨processes, rfl, howners, fun p hp => hoff p fun hmem => hp (hps hmem)⟩

theorem gate_eq (h : Alike ps s s') : s'.gate = s.gate := by
  obtain ⟨processes, rfl, -, -⟩ := h
  funext point
  cases point <;> rfl

theorem owners_eq (h : Alike ps s s') : s'.processes.map (·.owner) = s.processes.map (·.owner) := by
  obtain ⟨processes, rfl, howners, -⟩ := h
  exact howners

theorem length_eq (h : Alike ps s s') : s'.processes.length = s.processes.length := by
  simpa using congrArg List.length h.owners_eq

theorem processes_eq (h : Alike ps s s') {p : Nat} (hp : p ∉ ps) : s'.processes[p]? = s.processes[p]? := by
  obtain ⟨processes, rfl, -, hoff⟩ := h
  exact hoff p hp

theorem controlled?_eq (h : Alike ps s s') {p : Nat} (hp : p ∉ ps) :
    s'.controlled? p = s.controlled? p := by
  rw [controlled?, controlled?, h.processes_eq hp]

/-! ## What runs do -/

theorem write (h : Alike ps s s') (path contents : String) :
    (s'.write path contents).1 = (s.write path contents).1 ∧
      Alike ps (s.write path contents).2 (s'.write path contents).2 := by
  obtain ⟨processes, rfl, hsame⟩ := h
  cases hw : s.writeFailure with
  | some reason =>
    simp only [Script.write, hw]
    exact ⟨trivial, processes, rfl, hsame⟩
  | none =>
    cases hr : s.refusals.lookup path with
    | some failure =>
      simp only [Script.write, hw, hr]
      exact ⟨trivial, processes, by rw [hw], hsame⟩
    | none =>
      simp only [Script.write, hw, hr]
      exact ⟨trivial, processes, rfl, hsame⟩

theorem modifyGate (h : Alike ps s s') (point : Point) (f : Gate → Gate) :
    Alike ps (s.modifyGate point f) (s'.modifyGate point f) := by
  obtain ⟨processes, rfl, hsame⟩ := h
  cases point <;> exact ⟨processes, rfl, hsame⟩

/-- A program that is started in both is started as the same process. -/
theorem spawn (h : Alike ps s s') (run : Nat) (launch : Launch) :
    (s'.spawn run launch).1 = (s.spawn run launch).1 ∧
      Alike ps (s.spawn run launch).2 (s'.spawn run launch).2 := by
  have hlength := h.length_eq
  obtain ⟨processes, rfl, howners, hoff⟩ := h
  dsimp only at hlength
  cases hs : s.spawnFailure with
  | some reason =>
    simp only [Script.spawn, hs]
    exact ⟨trivial, processes, rfl, howners, hoff⟩
  | none =>
    simp only [Script.spawn, hs]
    refine ⟨by rw [hlength], processes ++ [⟨run, [], .alive, false, true⟩], rfl, by simp [howners],
      fun p hp => ?_⟩
    rw [List.getElem?_append, List.getElem?_append, hlength, hoff p hp]

/-- What is done with a process in both is done alike. -/
theorem modifyProcess (h : Alike ps s s') (p : Nat) {f : Process → Process}
    (hf : ∀ q, (f q).owner = q.owner) : Alike ps (s.modifyProcess p f) (s'.modifyProcess p f) := by
  obtain ⟨processes, rfl, howners, hoff⟩ := h
  refine ⟨processes.modify p f, rfl, ?_, fun p' hp' => ?_⟩
  · exact ((map_modify_of_eq hf).trans howners).trans (map_modify_of_eq hf).symm
  · simp only [Script.modifyProcess, List.getElem?_modify, hoff p' hp']

/-! ## What the script does -/

theorem failWrite (h : Alike ps s s') (reason : String) :
    Alike ps (s.failWrite reason) (s'.failWrite reason) := by
  obtain ⟨processes, rfl, hsame⟩ := h
  exact ⟨processes, rfl, hsame⟩

theorem failSpawn (h : Alike ps s s') (reason : String) :
    Alike ps (s.failSpawn reason) (s'.failSpawn reason) := by
  obtain ⟨processes, rfl, hsame⟩ := h
  exact ⟨processes, rfl, hsame⟩

/-- What is done in one of them with a process that may differ. -/
theorem modify_left (h : Alike ps s s') {p : Nat} (hp : p ∈ ps) {f : Process → Process}
    (hf : ∀ q, (f q).owner = q.owner) : Alike ps (s.modifyProcess p f) s' := by
  obtain ⟨processes, rfl, howners, hoff⟩ := h
  refine ⟨processes, rfl, howners.trans (map_modify_of_eq hf).symm, ?_⟩
  intro p' hp'
  have hne : p ≠ p' := fun heq => hp' (heq ▸ hp)
  rw [Script.getElem?_modifyProcess, if_neg hne]
  exact hoff p' hp'

end Alike

end Script

end Scratchpad.Sandbox
