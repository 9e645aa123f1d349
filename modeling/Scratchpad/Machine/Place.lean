import Scratchpad.Machine.Program

/-!
# Places

A place is a folder of a machine in which files are written and programs are run.

## Main definitions

* `Place`: a folder, and the machine that it is on.
* `Place.write`, `Place.read?`: files of a place.
* `Place.start`: runs a program in a place.
-/

namespace Scratchpad.Machine

open Sandbox (Failure Launch)

/-- A folder of a machine. -/
structure Place where
  tree : Tree
  /-- From where the path of the folder leads. -/
  here : Way
  /-- The path of the folder. -/
  path : String
deriving Inhabited

namespace Place

/-- Why a file cannot be written, as the user is told. -/
def writeFailure (p : Place) (path : String) (fault : Fault) : Failure :=
  .write (Path.join p.path path) fault.message

/-- Writes a file. -/
def write (p : Place) (path contents : String) : Except Failure Place :=
  match p.tree.write p.here (Path.join p.path path) (Utf8.encode contents) false with
  | .ok tree => .ok { p with tree := tree }
  | .error fault => .error (p.writeFailure path fault)

/-- The text of a file. -/
def read? (p : Place) (path : String) : Option String :=
  (p.tree.readText p.here (Path.join p.path path)).toOption

/-- Runs a program, if it can be started: what it does, and the place afterwards. -/
def start (p : Place) (l : Launch) : Except Fault (Course × Place) := do
  let way ← p.tree.locate p.here p.path
  if !p.tree.isFolder way then throw .missing
  let (course, tree) ← Machine.start p.tree way l
  return (course, { p with tree := tree })

end Place

end Scratchpad.Machine
