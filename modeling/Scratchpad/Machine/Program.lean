import Scratchpad.Machine.Shell.Evaluation
import Scratchpad.Sandbox.Script

/-!
# Programs

A machine has some programs, and running one of them is a matter of what it prints, when and how it ends,
and which files it leaves behind.

## Main definitions

* `installed`: the files that every machine has.
* `start`: runs a program, if it can be started.
-/

namespace Scratchpad.Machine

/-- The names of all programs. -/
def programNames : List String := Shell.shells ++ Utility.all.map (·.1)

/-- The folders that every machine has. -/
def systemFolders : List Way := [["bin"], ["dev"], ["tmp"], ["usr"], ["usr", "bin"]]

/-- The files that every machine has. -/
def installed : Tree :=
  ⟨(systemFolders.map fun way => (way, .folder)) ++
    programNames.flatMap (fun name => [(["bin", name], .program), (["usr", "bin", name], .program)]) ++
    [(["dev", "null"], .sink), (["dev", "zero"], .zeros)]⟩

/-- The variables that every program gets. -/
def usualEnvironment : Environment := .ofList [("HOME", "/"), ("PATH", Shell.State.usualPath)]

/-- What a shell leaves behind that did nothing but run a program. -/
def courseOf (s : Shell.State) : Course :=
  { prints := s.prints.reverse
    ending := match s.flow with
      | .killed _ => .signalled
      | .endless => .endless
      | _ => .exited s.status
    duration := s.now }

/-- Whether a text can be given to a program. -/
def isWord (s : String) : Bool := !s.toList.contains '\x00'

/-- Runs a program in a folder, if it can be started: what it does, and the files afterwards. -/
def start (tree : Tree) (here : Way) (l : Sandbox.Launch) : Except Fault (Course × Tree) := do
  let words := l.program :: l.arguments ++ l.environment.bindings.flatMap fun (n, v) => [n, v]
  if !words.all isWord then throw .badWord
  let given := usualEnvironment.extend l.environment.bindings
  let way ← Shell.State.program tree here given l.program
  let state : Shell.State :=
    { name := l.program, arguments := l.arguments, number := 100, tree := tree, here := here,
      assigned := given, exported := given.bindings.map (·.1) }
  let after := Shell.execute Shell.patience (way.getLastD "") l.program l.arguments state
  return (courseOf after, after.tree)

end Scratchpad.Machine
