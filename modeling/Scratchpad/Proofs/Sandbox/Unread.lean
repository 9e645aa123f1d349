import Scratchpad.Proofs.Sandbox.Call

/-!
# What nobody has read

What a process prints is kept in the sandbox until its run reads it, as long as the run cares. A run that reads
takes everything that is unread, and no other call takes anything.

## Main definitions

* `Script.unread`: the chunks of a process that nobody has read.
* `Script.Heeds`: nobody has ceased to care for a process.
* `Script.LeavesUnread`: whatever is unread of a process stays so.

## Main statements

* `Script.LeavesUnread.of_call`: every call but the one that reads leaves what is unread.
* `Script.unread_markRead`: when a process has been read, nothing is unread.
-/

namespace Scratchpad.Sandbox

namespace Script

/-- The chunks of a process that nobody has read, oldest first. -/
def unread (s : Script) (p : Nat) : List String := (s.processes[p]?.map (·.unread)).getD []

/-- Nobody has ceased to care for a process. -/
def Heeds (s : Script) (p : Nat) : Prop := ∀ q, s.processes[p]? = some q → q.isAttended = true

variable {s s' s'' : Script} {p : Nat}

theorem unread_of_getElem? {q : Process} (hq : s.processes[p]? = some q) : s.unread p = q.unread := by
  rw [unread, hq]
  rfl

/-- A process that has not been started has printed nothing that could be unread, and everybody may care. -/
theorem unread_of_length_le (h : s.processes.length ≤ p) : s.unread p = [] ∧ s.Heeds p := by
  have hnone : s.processes[p]? = none := List.getElem?_eq_none h
  exact ⟨by simp [unread, hnone], by simp [Heeds, hnone]⟩

/-- Whatever is unread of a process stays so, and who still cares for it has cared before. -/
structure LeavesUnread (p : Nat) (s s' : Script) : Prop where
  unread_eq : s'.unread p = s.unread p
  heeds : s'.Heeds p → s.Heeds p

namespace LeavesUnread

theorem of_eq (hp : s'.processes = s.processes) : LeavesUnread p s s' where
  unread_eq := by rw [unread, unread, hp]
  heeds h := by rwa [Heeds, ← hp]

theorem refl (s : Script) : LeavesUnread p s s := of_eq rfl

theorem trans (h : LeavesUnread p s s') (h' : LeavesUnread p s' s'') : LeavesUnread p s s'' where
  unread_eq := h'.unread_eq.trans h.unread_eq
  heeds hh := h.heeds (h'.heeds hh)

/-- A process that is changed neither in what is unread nor so that somebody cares again. -/
theorem modifyProcess (s : Script) (p' : Nat) {f : Process → Process}
    (hf : ∀ q, (f q).unread = q.unread ∧ ((f q).isAttended = true → q.isAttended = true)) :
    LeavesUnread p s (s.modifyProcess p' f) := by
  constructor
  case unread_eq =>
    rw [unread, unread, getElem?_modifyProcess]
    split
    · rw [Option.map_map]
      exact congrArg (Option.getD · []) (congrArg (Option.map · _) (funext fun q => (hf q).1))
    · rfl
  case heeds =>
    intro h q hq
    have hq' := h (if p' = p then f q else q) (by
      rw [getElem?_modifyProcess]
      split <;> simp [hq])
    split at hq'
    · exact (hf q).2 hq'
    · exact hq'

/-- **Every call but the one that reads leaves what is unread.** -/
theorem of_call (s : Script) {c : Call} (hc : c ≠ .markRead p) : LeavesUnread p s (s.call c) := by
  cases c with
  | write path contents => exact of_eq (processes_write ..)
  | spawn run launch =>
    rcases s.spawn_cases run launch with ⟨failure, -, hp⟩ | ⟨-, hp⟩
    · exact of_eq hp
    · -- a new process
      rcases Nat.lt_or_ge p s.processes.length with hlt | hge
      · have hsame : (s.spawn run launch).2.processes[p]? = s.processes[p]? := by
          rw [hp, List.getElem?_append_left hlt]
        exact ⟨by rw [call, unread, unread, hsame], fun h => by rwa [call, Heeds, hsame] at h⟩
      · obtain ⟨hnothing, hheeds⟩ := unread_of_length_le hge
        refine ⟨?_, fun _ => hheeds⟩
        rw [hnothing, call, unread, hp, List.getElem?_append_right hge, List.getElem?_singleton]
        split <;> rfl
  | kill p' => exact modifyProcess s p' fun q => by split <;> exact ⟨rfl, id⟩
  | dismiss p' => exact modifyProcess s p' fun q => ⟨rfl, by simp⟩
  | markRead p' =>
    have hne : p' ≠ p := fun h => hc (by rw [h])
    have hsame : (s.markRead p').processes[p]? = s.processes[p]? := by
      rw [markRead, getElem?_modifyProcess, if_neg hne]
    exact ⟨by rw [call, unread, unread, hsame], fun h => by rwa [call, Heeds, hsame] at h⟩
  | await point run => exact of_eq (processes_await ..)
  | leave point run => exact of_eq (processes_leave ..)

/-- Calls that do not read a process leave what is unread of it. -/
theorem of_worksBy {P : Call → Prop} (h : WorksBy P s s') (hP : ¬ P (.markRead p)) :
    LeavesUnread p s s' :=
  h.induction (Q := LeavesUnread p s) (refl s) fun t _ hc ht =>
    ht.trans (of_call t fun heq => hP (heq ▸ hc))

end LeavesUnread

/-- When a process has been read, nothing is unread, and who cares for it still does. -/
theorem unread_markRead (s : Script) (p : Nat) :
    (s.markRead p).unread p = [] ∧ ((s.markRead p).Heeds p → s.Heeds p) := by
  constructor
  · rw [unread, markRead, getElem?_modifyProcess, if_pos rfl]
    cases s.processes[p]? <;> rfl
  · intro h q hq
    exact h { q with unread := [] } (by rw [markRead, getElem?_modifyProcess, if_pos rfl, hq]; rfl)

end Script

end Scratchpad.Sandbox
