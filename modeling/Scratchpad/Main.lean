import Scratchpad.Tool.Session

/-!
# The command line

Runs the tool on files that are really there. The files that the user names are copied to the machine of a
session, the session goes on until nothing more happens, and everything that the tool has to say is written.

## Main definitions

* `main`: the tool.
-/

open Scratchpad

namespace Scratchpad.Tool

/-- The folder of the machine in which the user works. -/
def home : Machine.Way := ["home"]

/-- The way of a path of the user. -/
def wayOf (path : String) : Machine.Way :=
  if Path.isAbsolute path then Path.names path else home ++ Path.names path

/-- The paths of files that the tool may read. -/
def pathsToRead (argv : List String) : List String :=
  match CommandLine.Arguments.ofList argv with
  | .ok a => a.file :: configFile :: a.config.toList
  | .error _ => []

/-- A run as it is named for other programs. -/
def runName (run : Nat) : String := "r" ++ toString (run + 1)

/-- An event as it is told to other programs. Entries are named after the run and counted. -/
def message : Run.Event Nat Log.Entry → Run.Message
  | .started run source => .started (runName run) source
  | .output run entries =>
    .output (runName run) (entries.zipIdx.map fun (e, n) => ⟨runName run ++ "-" ++ toString n, 0, e⟩)
  | .finished run outcome => .finished (runName run) outcome

/-- Everything that a session has to say. -/
def Session.report (s : Session) : List (Channel × String) :=
  if s.arguments.asJson then s.events.flatMap fun e => (message e).lines true else s.lines

/-- Copies a file to a machine, if there is one. -/
def copy (tree : Machine.Tree) (path : String) : IO Machine.Tree := do
  try
    let bytes ← IO.FS.readBinFile path
    return tree.plant (wayOf path) (.file bytes.toList)
  catch _ => return tree

/-- Writes a line. -/
def writeLine (channel : Channel) (line : String) : IO Unit :=
  match channel with
  | .standardOutput => IO.println line
  | .standardError => IO.eprintln line

/-- Writes the files of a run to the folder that the user wants to keep. -/
def keep (s : Session) : IO Unit := do
  match s.arguments.workFolder with
  | none => return ()
  | some folder =>
    IO.FS.createDirAll folder
    for path in [preambleFile, s.plan.settings.entryFile] do
      match s.place.read? path with
      | none => pure ()
      | some text => IO.FS.writeFile (Path.join folder path) text

end Scratchpad.Tool

/-- Runs the tool on the arguments of its command line. -/
def main (argv : List String) : IO UInt32 := do
  let empty := Machine.installed.plant Tool.home .folder
  let tree ← (Tool.pathsToRead argv).foldlM Tool.copy empty
  match Tool.Session.begin tree Tool.home argv with
  | .error refusal =>
    match refusal.channel with
    | .standardOutput => IO.print refusal.text
    | .standardError => IO.eprint refusal.text
    return refusal.code.toUInt32
  | .ok session =>
    let session := session.finish
    Tool.keep session
    for (channel, line) in session.report do
      Tool.writeLine channel line
    return (session.code.getD 0).toUInt32
