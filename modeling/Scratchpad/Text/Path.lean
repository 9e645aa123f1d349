/-!
# Paths

A path leads through folders, whose names are separated by slashes. Empty names and single dots are
passed over, so that many spellings lead the same way, but a path that begins with a slash leads from the
root.

## Main definitions

* `Path.names`: the names on the way.
* `Path.isAbsolute`: whether a path begins at the root.
* `Path.fileName?`: the name of what a path leads to.
* `Path.folder`: the path of the folder in which that is.
* `Path.join`: a path that begins where another one ends.
-/

namespace Scratchpad.Path

/-- The parts of a text between separators. -/
def splitAt (separator : Char) : List Char → List (List Char)
  | [] => [[]]
  | c :: cs =>
    if c = separator then [] :: splitAt separator cs
    else match splitAt separator cs with
      | [] => [[c]]
      | part :: parts => (c :: part) :: parts

/-- Whether a path begins at the root. -/
def isAbsolute (path : String) : Bool := path.toList.head? == some '/'

/-- The names on the way. -/
def names (path : String) : List String :=
  ((splitAt '/' path.toList).filter fun name => !name.isEmpty && name != ['.']).map String.ofList

/-- The name of what a path leads to. A path that only goes up or leads nowhere names nothing. -/
def fileName? (path : String) : Option String := (names path).getLast?.filter (· != "..")

/-- The path of the folder in which something is. -/
def folder (path : String) : String :=
  let way := "/".intercalate (names path).dropLast
  if isAbsolute path then "/" ++ way else if way.isEmpty then "." else way

/-- A path that begins where another one ends, unless it begins at the root. -/
def join (base path : String) : String :=
  if isAbsolute path || base.isEmpty then path
  else if base.toList.getLast? == some '/' then base ++ path
  else base ++ "/" ++ path

end Scratchpad.Path
