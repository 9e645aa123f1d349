import Scratchpad.Sandbox.Script

/-!
# What a sandbox keeps a record of

Files that are written and programs that are started stay: a sandbox keeps a record of them. Nothing that
is done with gates or processes changes the record, and what is refused leaves nothing behind.

## Main definitions

* `Deed`, `Deed.apply`: what is done and stays, and what it makes of a record.
* `Script.record`: the files and the launches of a sandbox.

## Main statements

* `Script.record_write`, `Script.record_spawn`: what is not refused leaves a deed behind.
* `Script.file?_of_write`: what the files hold when one has been written.
-/

namespace Scratchpad.Sandbox

/-- What is done in a sandbox and stays. -/
inductive Deed where
  /-- A file is written. -/
  | write (path contents : String)
  /-- A program is started. -/
  | start (launch : Launch)
deriving DecidableEq, Repr

/-- Names and contents of files, and what programs were started with. -/
abbrev Record := List (String × String) × List Launch

/-- What a deed makes of a record. -/
def Deed.apply (r : Record) : Deed → Record
  | .write path contents => ((path, contents) :: r.1.filter (·.1 != path), r.2)
  | .start launch => (r.1, r.2 ++ [launch])

namespace Script

variable (s : Script)

/-- The files and the launches of a sandbox. -/
def record : Record := (s.files, s.launches)

@[simp] theorem record_modifyGate (point : Point) (f : Gate → Gate) :
    (s.modifyGate point f).record = s.record := by
  cases point <;> rfl

@[simp] theorem record_await (point : Point) (run : Nat) : (s.await point run).record = s.record :=
  record_modifyGate ..

@[simp] theorem record_leave (point : Point) (run : Nat) : (s.leave point run).record = s.record :=
  record_modifyGate ..

@[simp] theorem record_modifyProcess (p : Nat) (f : Process → Process) :
    (s.modifyProcess p f).record = s.record := rfl

variable {s} in
/-- The files are part of the record. -/
theorem files_eq_of_record {s' : Script} (h : s'.record = s.record) : s'.files = s.files :=
  congrArg Prod.fst h

/-- A file that is refused leaves nothing behind. -/
theorem record_write (path contents : String) :
    (s.write path contents).2.record =
      ((s.write path contents).1.toOption.map fun _ => Deed.write path contents).elim s.record
        (Deed.apply s.record) := by
  rw [write]
  split
  · rfl
  · split <;> rfl

/-- A program that is refused leaves nothing behind. -/
theorem record_spawn (run : Nat) (launch : Launch) :
    (s.spawn run launch).2.record =
      ((s.spawn run launch).1.toOption.map fun _ => Deed.start launch).elim s.record
        (Deed.apply s.record) := by
  rw [spawn]
  split <;> rfl

/-- The files other than one are what they were. -/
theorem lookup_filter_of_ne {path path' : String} (hpath : path' ≠ path) (files : List (String × String)) :
    (files.filter (·.1 != path)).lookup path' = files.lookup path' := by
  induction files with
  | nil => rfl
  | cons file files ih =>
    obtain ⟨name, contents⟩ := file
    rw [List.filter_cons, Environment.lookup_cons_pair]
    by_cases hname : name = path
    · have hne : path' ≠ name := by rwa [hname]
      simp [hname, hpath, ih]
    · simp [hname, Environment.lookup_cons_pair, ih]

variable {s} in
/-- A file that has been written holds what was written, and the others hold what they held. -/
theorem file?_of_write {path contents : String} {s' : Script} (h : s.write path contents = (.ok (), s'))
    (path' : String) : s'.file? path' = if path' = path then some contents else s.file? path' := by
  have hfiles : s'.files = (path, contents) :: s.files.filter (·.1 != path) := by
    have hrecord := s.record_write path contents
    rw [h] at hrecord
    exact congrArg Prod.fst hrecord
  rw [file?, hfiles, Environment.lookup_cons_pair]
  split
  · rfl
  · rename_i hpath
    exact lookup_filter_of_ne hpath s.files

end Script

end Scratchpad.Sandbox
