import Scratchpad.Config.Reading
import Scratchpad.Machine.Tree

/-!
# Troubles

What keeps the tool from running anything. A trouble is told together with what brought it about, from the
outermost cause to the innermost.

## Main definitions

* `Trouble`, `Trouble.causes`: troubles, and what is told of them.
* `Trouble.message`: all causes on one line.
* `Trouble.report`: all causes, one below the other.
-/

namespace Scratchpad.Tool

open Machine (Fault)

/-- What keeps the tool from running anything. -/
inductive Trouble where
  /-- A configuration, for which there is a label, cannot be read. -/
  | configUnreadable (label path : String) (fault : Fault)
  | configInvalid (label : String) (failure : Config.Failure)
  | sourceUnreadable (path : String) (fault : Fault)
  | folderNotMade (path : String) (fault : Fault)
  /-- What is to be watched is no file. -/
  | notAFile (path : String)
  /-- A folder is missing that is to be watched and that has a full path. -/
  | folderNotWatched (folder fullPath : String)
deriving DecidableEq, Inhabited, Repr

namespace Trouble

/-- What is told of a trouble, from the outermost cause to the innermost. -/
def causes : Trouble → List String
  | configUnreadable label path fault =>
    ["loading " ++ label, "failed to read " ++ path ++ ": " ++ fault.message, fault.message]
  | configInvalid label failure => ["loading " ++ label, failure.message, failure.report]
  | sourceUnreadable path fault => ["failed to read " ++ path, fault.message]
  | folderNotMade path fault => ["creating " ++ path, fault.message]
  | notAFile path => ["not a file: " ++ path]
  | folderNotWatched folder fullPath =>
    ["watching " ++ folder, "No path was found. about [" ++ Text.quoted fullPath ++ "]"]

/-- All causes on one line. -/
def message (t : Trouble) : String := ": ".intercalate t.causes

/-- A cause below others. Each of its lines is indented, and the first one is numbered if there are more. -/
def causeReport (number : Option Nat) (cause : String) : String :=
  let lines := (Path.splitAt '\n' cause.toList).map String.ofList
  match number with
  | none => "    " ++ "\n    ".intercalate lines
  | some n =>
    let ds := toString n
    String.ofList (List.replicate (5 - ds.length) ' ') ++ ds ++ ": " ++ "\n       ".intercalate lines

/-- All causes, one below the other. -/
def report (t : Trouble) : String :=
  match t.causes with
  | [] => ""
  | [outermost] => "Error: " ++ outermost ++ "\n"
  | [outermost, cause] => "Error: " ++ outermost ++ "\n\nCaused by:\n" ++ causeReport none cause ++ "\n"
  | outermost :: causes =>
    "Error: " ++ outermost ++ "\n\nCaused by:\n" ++
      "\n".intercalate (causes.zipIdx.map fun (cause, n) => causeReport (some n) cause) ++ "\n"

end Trouble

end Scratchpad.Tool
