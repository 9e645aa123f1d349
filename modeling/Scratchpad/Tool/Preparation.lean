import Scratchpad.Tool.Trouble

/-!
# Preparing runs

Before anything is run, the configuration and the source are read. A configuration that the user names has
to be there. Otherwise the file of a fixed name counts, if there is one.

## Main definitions

* `loadConfig`: the configuration.
* `readSource`: the source.
-/

namespace Scratchpad.Tool

open Machine (Tree Way)

/-- The file that holds the configuration unless told otherwise. -/
def configFile : String := "tsplay.toml"

/-- Reads a configuration, for which there is a label. -/
def readConfig (t : Tree) (here : Way) (label path : String) : Except Trouble Config :=
  match t.readText here path with
  | .error fault => .error (.configUnreadable label path fault)
  | .ok text =>
    match Config.ofText text with
    | .error failure => .error (.configInvalid label failure)
    | .ok c => .ok c

/-- Whether a path leads to a file. -/
def isFile (t : Tree) (here : Way) (path : String) : Bool :=
  match t.locate here path with
  | .ok way =>
    match t.find? way with
    | some (.file _) | some .program => true
    | _ => false
  | .error _ => false

/-- The configuration that the user names, or that of the fixed name, or the default one. -/
def loadConfig (t : Tree) (here : Way) (path : Option String) : Except Trouble Config :=
  match path with
  | some path => readConfig t here ("config " ++ path) path
  | none => if isFile t here configFile then readConfig t here ("./" ++ configFile) configFile else .ok {}

/-- The text of a source. -/
def readSource (t : Tree) (here : Way) (path : String) : Except Trouble String :=
  match t.readText here path with
  | .error fault => .error (.sourceUnreadable path fault)
  | .ok text => .ok text

end Scratchpad.Tool
