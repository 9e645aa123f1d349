import Scratchpad.Text.Path
import Scratchpad.Text.Utf8

/-!
# Trees of files

The files of a machine form a tree of folders. A way from the root is a list of names. Paths are resolved
from a folder: two dots lead up, and everything on the way has to be a folder that exists.

## Main definitions

* `Fault`: why a file cannot be used, and what the user is told.
* `Entry`, `Tree`: files and folders.
* `Tree.locate`: the way of a path.
* `Tree.read`, `Tree.readText`, `Tree.write`, `Tree.makeFolders`, `Tree.remove`: using files.
-/

namespace Scratchpad.Machine

/-- Why a file cannot be used. -/
inductive Fault where
  | missing
  | denied
  | exists
  | notFolder
  | isFolder
  /-- The bytes of a file are no text. -/
  | notText
  /-- A path has a character that no path can have. -/
  | badPath
  /-- What a program is given has a character that it cannot have. -/
  | badWord
  | tooLong
deriving DecidableEq, Inhabited, Repr

/-- A message with the number by which an operating system knows it. -/
def numbered (message : String) (number : Nat) : String :=
  message ++ " (os error " ++ toString number ++ ")"

/-- What is wrong, without a number. -/
def Fault.name : Fault → String
  | missing => "No such file or directory"
  | denied => "Permission denied"
  | «exists» => "File exists"
  | notFolder => "Not a directory"
  | isFolder => "Is a directory"
  | notText => "stream did not contain valid UTF-8"
  | badPath => "file name contained an unexpected NUL byte"
  | badWord => "nul byte found in provided data"
  | tooLong => "File name too long"

/-- What the user is told. -/
def Fault.message (f : Fault) : String :=
  match f with
  | missing => numbered f.name 2
  | denied => numbered f.name 13
  | «exists» => numbered f.name 17
  | notFolder => numbered f.name 20
  | isFolder => numbered f.name 21
  | tooLong => numbered f.name 36
  | notText | badPath | badWord => f.name

/-- A way from the root. -/
abbrev Way := List String

/-- What is at the end of a way. -/
inductive Entry where
  | file (bytes : List UInt8)
  | folder
  /-- A program that the machine knows. -/
  | program
  /-- Takes everything and holds nothing. -/
  | sink
  /-- Takes everything and holds zeros without end. -/
  | zeros
deriving DecidableEq, Inhabited, Repr

/-- The files and folders of a machine, apart from the root. -/
structure Tree where
  entries : List (Way × Entry)
deriving DecidableEq, Inhabited, Repr

namespace Tree

/-- What is at the end of a way. -/
def find? (t : Tree) (way : Way) : Option Entry :=
  if way.isEmpty then some .folder else t.entries.lookup way

/-- Whether a way leads to a folder. -/
def isFolder (t : Tree) (way : Way) : Bool := t.find? way == some .folder

/-- How many bytes a name may have. -/
def longestName : Nat := 255

/-- How many bytes a path may have. -/
def longestPath : Nat := 4095

/-- Follows names from a folder. All but the last have to lead to folders. -/
def follow (t : Tree) : Way → List String → Except Fault Way
  | here, [] => .ok here
  | here, name :: names =>
    match t.find? here with
    | some .folder =>
      if longestName < name.utf8ByteSize then .error .tooLong
      else follow t (if name = ".." then here.dropLast else here ++ [name]) names
    | some _ => .error .notFolder
    | none => .error .missing

/-- Whether a path says that it leads to a folder. -/
def meansFolder (path : String) : Bool :=
  let cs := path.toList.reverse
  cs.head? == some '/' || cs.take 2 == ['.', '/'] || cs == ['.']

/-- The way of a path from a folder. Nothing has to be at its end. -/
def locate (t : Tree) (here : Way) (path : String) : Except Fault Way := do
  if path.isEmpty then throw .missing
  if path.toList.contains '\x00' then throw .badPath
  if longestPath < path.utf8ByteSize then throw .tooLong
  let way ← t.follow (if Path.isAbsolute path then [] else here) (Path.names path)
  match t.find? way with
  | some .folder | none => return way
  | some _ => if meansFolder path then throw .notFolder else return way

/-- Puts something at the end of a way. -/
def put (t : Tree) (way : Way) (e : Entry) : Tree :=
  ⟨(way, e) :: t.entries.filter (·.1 != way)⟩

/-- How much is read of a file without an end. -/
def endlessSize : Nat := 65536

/-- The bytes of a file. -/
def read (t : Tree) (here : Way) (path : String) : Except Fault (List UInt8) := do
  match t.find? (← t.locate here path) with
  | some (.file bytes) => return bytes
  | some .folder => throw .isFolder
  | some .program | some .sink => return []
  | some .zeros => return List.replicate endlessSize 0
  | none => throw .missing

/-- The text of a file. -/
def readText (t : Tree) (here : Way) (path : String) : Except Fault String := do
  match Utf8.decode? (← t.read here path) with
  | some s => return s
  | none => throw .notText

/-- Writes a file, behind what it holds already or in place of it. -/
def write (t : Tree) (here : Way) (path : String) (bytes : List UInt8) (isAppended : Bool) :
    Except Fault Tree := do
  let way ← t.locate here path
  match t.find? way with
  | some .folder => throw .isFolder
  | some .program => throw .denied
  | some .sink | some .zeros => return t
  | some (.file old) => return t.put way (.file (if isAppended then old ++ bytes else bytes))
  | none =>
    if !t.isFolder way.dropLast then throw .missing
    else if meansFolder path then throw .isFolder
    else return t.put way (.file bytes)

/-- Makes one folder. -/
def makeFolder (t : Tree) (here : Way) (path : String) : Except Fault Tree := do
  let way ← t.locate here path
  match t.find? way with
  | some _ => throw .exists
  | none => if t.isFolder way.dropLast then return t.put way .folder else throw .missing

/-- Whether a path leads to a folder. -/
def leadsToFolder (t : Tree) (here : Way) (path : String) : Bool :=
  match t.locate here path with
  | .ok way => t.isFolder way
  | .error _ => false

/-- Makes a folder at the end of names, of which the last comes first. Only if its own folder is missing
is that one made before. -/
def makeUpwards (t : Tree) (here : Way) (root : String) : List String → Except Fault Tree
  | [] => .ok t
  | name :: up => do
    let path := root ++ "/".intercalate (name :: up).reverse
    match t.makeFolder here path with
    | .ok t => return t
    | .error .missing =>
      let t ← makeUpwards t here root up
      match t.makeFolder here path with
      | .ok t => return t
      | .error fault => if t.leadsToFolder here path then return t else throw fault
    | .error fault => if t.leadsToFolder here path then return t else throw fault

/-- Makes a folder, and those on the way to it that are missing. -/
def makeFolders (t : Tree) (here : Way) (path : String) : Except Fault Tree :=
  t.makeUpwards here (if Path.isAbsolute path then "/" else "") (Path.names path).reverse

/-- Removes what is at the end of a way. -/
def remove (t : Tree) (way : Way) : Tree := ⟨t.entries.filter (·.1 != way)⟩

/-- The names in a folder, in order. -/
def namesIn (t : Tree) (way : Way) : List String :=
  ((t.entries.filter fun e => e.1.dropLast == way).map fun e => e.1.getLastD "").mergeSort (· ≤ ·)

/-- A tree with a file or a folder more, and the folders on the way to it. -/
def plant (t : Tree) (way : Way) (e : Entry) : Tree :=
  let ways := (List.range way.length).map way.take
  let t := ways.foldl (fun t w => if (t.find? w).isSome then t else t.put w .folder) t
  t.put way e

end Tree

end Scratchpad.Machine
