import Scratchpad.Proofs.Sandbox.Frame

/-!
# Calls of a sandbox

Whatever a run does in a sandbox, it does by a few calls. None of them bears on how a process ends, on who
owns it, on which gates are held, or on which files are refused: that is up to the script.

## Main definitions

* `Call`, `Script.call`: what a run can call, and what a call makes of a sandbox.
* `Call.IsModest`: a call that neither reads a process nor starts one.
* `Script.IsFree`: no gate is held.
* `Script.Works`, `Script.WorksBy`: one sandbox becomes another by calls, or by calls of a kind.

## Main statements

* `Script.Works.isHeld_eq`, `Script.Works.refusals_eq`: calls hold no gate and refuse no file.
* `Script.Works.exists_process`: a process ends as the script says, whatever is called.
-/

namespace Scratchpad.Sandbox

/-- What a run can call. -/
inductive Call where
  | write (path contents : String)
  | spawn (run : Nat) (launch : Launch)
  | kill (process : Nat)
  | dismiss (process : Nat)
  | markRead (process : Nat)
  | await (point : Point) (run : Nat)
  | leave (point : Point) (run : Nat)

/-- A call that neither reads a process nor starts one. -/
def Call.IsModest (c : Call) : Prop := (∀ p, c ≠ .markRead p) ∧ ∀ run launch, c ≠ .spawn run launch

@[simp] theorem Call.isModest_write (path contents : String) : (write path contents).IsModest := ⟨nofun, nofun⟩

@[simp] theorem Call.isModest_kill (p : Nat) : (kill p).IsModest := ⟨nofun, nofun⟩

@[simp] theorem Call.isModest_dismiss (p : Nat) : (dismiss p).IsModest := ⟨nofun, nofun⟩

@[simp] theorem Call.isModest_await (point : Point) (run : Nat) : (await point run).IsModest := ⟨nofun, nofun⟩

@[simp] theorem Call.isModest_leave (point : Point) (run : Nat) : (leave point run).IsModest := ⟨nofun, nofun⟩

namespace Script

/-- What a call makes of a sandbox. -/
def call (s : Script) : Call → Script
  | .write path contents => (s.write path contents).2
  | .spawn run launch => (s.spawn run launch).2
  | .kill process => s.kill process
  | .dismiss process => s.dismiss process
  | .markRead process => s.markRead process
  | .await point run => s.await point run
  | .leave point run => s.leave point run

/-- A call neither holds a gate nor releases it. -/
theorem isHeld_call (s : Script) (c : Call) (point : Point) :
    ((s.call c).gate point).isHeld = (s.gate point).isHeld := by
  cases c with
  | write path contents => rw [call, gate_write]
  | spawn run launch => rw [call, gate_spawn]
  | kill p => rw [call, kill, gate_modifyProcess]
  | dismiss p => rw [call, dismiss, gate_modifyProcess]
  | markRead p => rw [call, markRead, gate_modifyProcess]
  | await point' run =>
    rw [call, gate_await]
    split
    · rename_i hpoint
      rw [hpoint]
    · rfl
  | leave point' run =>
    rw [call, gate_leave]
    split
    · rename_i hpoint
      rw [hpoint]
    · rfl

/-- A call refuses no file. -/
theorem refusals_call (s : Script) (c : Call) : (s.call c).refusals = s.refusals := by
  cases c with
  | write path contents =>
    rw [call, write]
    split
    · rfl
    · split <;> rfl
  | spawn run launch =>
    rw [call, spawn]
    split <;> rfl
  | await point run | leave point run => cases point <;> rfl
  | _ => rfl

/-- A process that is changed neither in its owner nor in its end is still there. -/
theorem exists_process_modify (s : Script) {p p' : Nat} {f : Process → Process} {q : Process}
    (hq : s.processes[p]? = some q) (hf : ∀ q, (f q).owner = q.owner ∧ (f q).control = q.control) :
    ∃ q', (s.modifyProcess p' f).processes[p]? = some q' ∧ q'.owner = q.owner ∧ q'.control = q.control := by
  rw [getElem?_modifyProcess]
  split
  · exact ⟨f q, by rw [hq, Option.map_some], hf q⟩
  · exact ⟨q, hq, rfl, rfl⟩

/-- No call makes a process end or changes its owner. -/
theorem exists_process_call (s : Script) (c : Call) {p : Nat} {q : Process}
    (hq : s.processes[p]? = some q) :
    ∃ q', (s.call c).processes[p]? = some q' ∧ q'.owner = q.owner ∧ q'.control = q.control := by
  cases c with
  | write path contents =>
    rw [call, processes_write]
    exact ⟨q, hq, rfl, rfl⟩
  | spawn run launch =>
    refine ⟨q, ?_, rfl, rfl⟩
    rcases s.spawn_cases run launch with ⟨failure, -, hp⟩ | ⟨-, hp⟩
    · rw [call, hp, hq]
    · rw [call, hp, List.getElem?_append_left (List.getElem?_eq_some_iff.mp hq).1, hq]
  | kill p' => exact s.exists_process_modify hq fun q => by split <;> exact ⟨rfl, rfl⟩
  | dismiss p' => exact s.exists_process_modify hq fun q => ⟨rfl, rfl⟩
  | markRead p' => exact s.exists_process_modify hq fun q => ⟨rfl, rfl⟩
  | await point run =>
    rw [call, processes_await]
    exact ⟨q, hq, rfl, rfl⟩
  | leave point run =>
    rw [call, processes_leave]
    exact ⟨q, hq, rfl, rfl⟩

/-- No gate is held. -/
def IsFree (s : Script) : Prop := ∀ point, (s.gate point).isHeld = false

/-- One sandbox becomes another by calls of a kind. -/
def WorksBy (P : Call → Prop) (s s' : Script) : Prop :=
  ∃ calls : List Call, (∀ c ∈ calls, P c) ∧ s' = calls.foldl call s

/-- One sandbox becomes another by calls. -/
def Works (s s' : Script) : Prop := ∃ calls : List Call, s' = calls.foldl call s

namespace WorksBy

variable {P : Call → Prop} {s s' s'' : Script}

theorem refl (s : Script) : WorksBy P s s := ⟨[], by simp, rfl⟩

theorem trans (h : WorksBy P s s') (h' : WorksBy P s' s'') : WorksBy P s s'' := by
  obtain ⟨calls, hcalls, rfl⟩ := h
  obtain ⟨more, hmore, rfl⟩ := h'
  exact ⟨calls ++ more, List.forall_mem_append.mpr ⟨hcalls, hmore⟩, by rw [List.foldl_append]⟩

theorem of_call (s : Script) {c : Call} (hc : P c) : WorksBy P s (s.call c) :=
  ⟨[c], by simpa using hc, rfl⟩

theorem mono {Q : Call → Prop} (h : WorksBy P s s') (hPQ : ∀ c, P c → Q c) : WorksBy Q s s' := by
  obtain ⟨calls, hcalls, rfl⟩ := h
  exact ⟨calls, fun c hc => hPQ c (hcalls c hc), rfl⟩

/-- What every call of the kind keeps is kept by all of them. -/
theorem induction {Q : Script → Prop} (h : WorksBy P s s') (hs : Q s)
    (hcall : ∀ s c, P c → Q s → Q (s.call c)) : Q s' := by
  obtain ⟨calls, hcalls, rfl⟩ := h
  exact List.foldlRecOn calls call hs fun s hs c hc => hcall s c (hcalls c hc) hs

theorem works (h : WorksBy P s s') : Works s s' := by
  obtain ⟨calls, -, hcalls⟩ := h
  exact ⟨calls, hcalls⟩

end WorksBy

namespace Works

variable {s s' s'' : Script}

theorem refl (s : Script) : Works s s := ⟨[], rfl⟩

theorem trans (h : Works s s') (h' : Works s' s'') : Works s s'' := by
  obtain ⟨calls, rfl⟩ := h
  obtain ⟨more, rfl⟩ := h'
  exact ⟨calls ++ more, by rw [List.foldl_append]⟩

/-- What every call keeps is kept by all of them. -/
theorem induction {P : Script → Prop} (h : Works s s') (hs : P s) (hcall : ∀ s c, P s → P (s.call c)) :
    P s' := by
  obtain ⟨calls, rfl⟩ := h
  exact List.foldlRecOn calls call hs fun s hs c _ => hcall s c hs

theorem isHeld_eq (h : Works s s') (point : Point) : (s'.gate point).isHeld = (s.gate point).isHeld :=
  h.induction (P := fun t => (t.gate point).isHeld = (s.gate point).isHeld) rfl
    fun t c ht => (t.isHeld_call c point).trans ht

/-- Calls hold no gate. -/
theorem isFree (h : Works s s') (hfree : s.IsFree) : s'.IsFree := fun point =>
  (h.isHeld_eq point).trans (hfree point)

theorem refusals_eq (h : Works s s') : s'.refusals = s.refusals :=
  h.induction (P := fun t => t.refusals = s.refusals) rfl fun t c ht => (t.refusals_call c).trans ht

/-- **A process ends as the script says**, whatever is called. -/
theorem exists_process (h : Works s s') {p : Nat} {q : Process} (hq : s.processes[p]? = some q) :
    ∃ q', s'.processes[p]? = some q' ∧ q'.owner = q.owner ∧ q'.control = q.control := by
  refine h.induction
    (P := fun t => ∃ q', t.processes[p]? = some q' ∧ q'.owner = q.owner ∧ q'.control = q.control)
    ⟨q, hq, rfl, rfl⟩ ?_
  rintro t c ⟨q', hq', howner, hcontrol⟩
  obtain ⟨q'', hq'', howner', hcontrol'⟩ := t.exists_process_call c hq'
  exact ⟨q'', hq'', howner'.trans howner, hcontrol'.trans hcontrol⟩

end Works

end Script

end Scratchpad.Sandbox
