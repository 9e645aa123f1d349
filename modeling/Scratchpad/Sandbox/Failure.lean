/-!
# Failures of a sandbox

What can go wrong in the place where a program is run.

## Main definitions

* `Failure`, `Failure.message`: failures, and what the user is told of them.
-/

namespace Scratchpad.Sandbox

/-- What went wrong in a sandbox. -/
inductive Failure where
  /-- A file could not be written. -/
  | write (path reason : String)
  /-- A program could not be started. -/
  | spawn (program reason : String)
  /-- It is not known how a program ended. -/
  | wait (reason : String)
deriving DecidableEq, Inhabited, Repr

/-- What the user is told. -/
def Failure.message : Failure → String
  | .write path reason => "failed to write " ++ path ++ ": " ++ reason
  | .spawn program reason => "failed to spawn \x60" ++ program ++ "\x60: " ++ reason
  | .wait reason => "failed waiting for process exit: " ++ reason

end Scratchpad.Sandbox
