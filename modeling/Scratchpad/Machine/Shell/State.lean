import Scratchpad.Environment
import Scratchpad.Machine.Course
import Scratchpad.Machine.Shell.Syntax
import Scratchpad.Machine.Tree

/-!
# The state of a shell

What a shell knows while it carries out a script: its variables and functions, where its descriptors lead,
what it has printed at which time, and what becomes of the script after the present command.

## Main definitions

* `Target`: where a descriptor leads.
* `Flow`: what becomes of the script.
* `State`: the state of a shell.
* `State.print`: prints something.
* `State.complain`: tells the user what is wrong.
-/

namespace Scratchpad.Machine.Shell

/-- Where a descriptor leads. -/
inductive Target where
  /-- To whoever started the shell. -/
  | pipe (channel : Channel)
  | file (way : Way)
  /-- To whoever reads the output of a command. -/
  | reader
  | nowhere
deriving DecidableEq, Inhabited, Repr

/-- What becomes of a script after a command. -/
inductive Flow where
  | onward
  /-- Loops are left, and the last one may go on with its next round. -/
  | leaving (loops : Nat) (goesOn : Bool)
  /-- A function is left. -/
  | returning
  | exiting
  /-- The shell is ended by a signal. -/
  | killed (signal : Nat)
  | endless
deriving DecidableEq, Inhabited, Repr

/-- A command that was carried out while the script went on. -/
structure Job where
  number : Nat
  /-- When it ends. -/
  ending : Nat
  status : UInt8
deriving DecidableEq, Inhabited, Repr

/-- The state of a shell. -/
structure State where
  /-- How the shell is called. -/
  name : String
  arguments : List String
  /-- The number of the process. -/
  number : Nat
  tree : Tree
  /-- The folder from which paths lead. -/
  here : Way
  assigned : Environment
  /-- The variables that programs get. -/
  exported : List String
  functions : List (String × Command) := []
  /-- The line of the present command. -/
  line : Nat := 1
  /-- The code of the last command. -/
  status : UInt8 := 0
  /-- The time in milliseconds. -/
  now : Nat := 0
  /-- What has been printed, the latest first. -/
  prints : List Print := []
  /-- What whoever reads the output of a command gets, the latest first. -/
  collected : List (List UInt8) := []
  /-- Where descriptors lead. -/
  targets : List (Nat × Target) := [(1, .pipe .standardOutput), (2, .pipe .standardError)]
  input : List UInt8 := []
  flow : Flow := .onward
  jobs : List Job := []
  /-- What is carried out when a signal arrives or, under a signal of number zero, when the script ends. -/
  traps : List (Nat × String) := []
  /-- Whether a command that fails ends the script. -/
  endsOnFailure : Bool := false
deriving Inhabited

namespace State

/-- Prints something to a descriptor. -/
def print (s : State) (descriptor : Nat) (bytes : List UInt8) : State :=
  match s.targets.lookup descriptor with
  | some (.pipe channel) => { s with prints := ⟨s.now, channel, bytes⟩ :: s.prints }
  | some (.file way) =>
    match s.tree.find? way with
    | some (.file old) => { s with tree := s.tree.put way (.file (old ++ bytes)) }
    | _ => s
  | some .reader => { s with collected := bytes :: s.collected }
  | some .nowhere => s
  | none => { s with status := 1 }

/-- Prints a text to a descriptor. -/
def printText (s : State) (descriptor : Nat) (text : String) : State := s.print descriptor (Utf8.encode text)

/-- A state with another code of the last command. -/
def withStatus (s : State) (status : UInt8) : State := { s with status := status }

/-- Tells the user what is wrong on the present line. -/
def complain (s : State) (message : String) (status : UInt8) : State :=
  (s.printText 2 (s.name ++ ": " ++ toString s.line ++ ": " ++ message ++ "\n")).withStatus status

/-- Ends the script with a code. -/
def exit (s : State) (status : UInt8) : State := { s with status := status, flow := .exiting }

/-- What programs get of the variables. -/
def environment (s : State) : Environment :=
  ⟨s.assigned.bindings.filter fun (name, _) => s.exported.contains name⟩

/-- Sets a variable. -/
def assign (s : State) (name value : String) : State :=
  { s with assigned := s.assigned.insert name value }

/-- Removes a variable. -/
def forget (s : State) (name : String) : State :=
  { s with
    assigned := ⟨s.assigned.bindings.filter (·.1 != name)⟩
    exported := s.exported.filter (· != name) }

/-- Gives a variable to programs. -/
def offer (s : State) (name : String) : State :=
  if s.exported.contains name then s else { s with exported := s.exported ++ [name] }

/-- The value of a parameter. -/
def value? (s : State) (name : String) : Option String :=
  match name with
  | "?" => some (toString s.status)
  | "#" => some (toString s.arguments.length)
  | "$" => some (toString s.number)
  | "!" => s.jobs.getLast?.map fun j => toString j.number
  | "-" => some (if s.endsOnFailure then "e" else "")
  | "0" => some s.name
  | "@" | "*" => if s.arguments.isEmpty then none else some (" ".intercalate s.arguments)
  | name =>
    match name.toNat? with
    | some n => s.arguments[n - 1]?
    | none => s.assigned.get? name

/-- Where programs are looked for unless told otherwise. -/
def usualPath : String := "/usr/local/sbin:/usr/local/bin:/usr/sbin:/usr/bin:/sbin:/bin"

/-- What is at the end of the way of a program that is looked for, or why there is none. A name without a
slash is looked for in some folders. -/
def program (tree : Tree) (here : Way) (given : Environment) (name : String) : Except Fault Way := do
  let attempt (path : String) : Except Fault Way := do
    let way ← tree.locate here path
    match tree.find? way with
    | some .program => return way
    | some _ => throw .denied
    | none => throw .missing
  if name.toList.contains '/' then attempt name
  else if name.isEmpty then throw .missing
  else
    let folders := (Path.splitAt ':' ((given.get? "PATH").getD usualPath).toList).map String.ofList
    let attempts := folders.map fun folder =>
      attempt (if folder.isEmpty then "./" ++ name else folder ++ "/" ++ name)
    let found := attempts.findSome? fun r =>
      match r with
      | .ok way => some way
      | .error _ => none
    let isDenied := attempts.any fun r =>
      match r with
      | .error .denied => true
      | _ => false
    match found with
    | some way => return way
    | none => throw (if isDenied then .denied else .missing)

/-- Runs something whose output is collected. -/
def collecting (s : State) : State :=
  { s with targets := (1, .reader) :: s.targets.filter (·.1 != 1), collected := [] }

/-- What has been collected. -/
def output (s : State) : List UInt8 := s.collected.reverse.flatten

/-- The state after something was carried out apart. Only what others can see is kept. -/
def after (s inner : State) : State :=
  { s with
    tree := inner.tree
    now := inner.now
    prints := inner.prints
    collected := inner.collected
    input := inner.input
    status := inner.status
    flow := match inner.flow with
      | .killed signal => .killed signal
      | .endless => .endless
      | _ => .onward }

end State

end Scratchpad.Machine.Shell
