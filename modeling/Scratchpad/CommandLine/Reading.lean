import Scratchpad.CommandLine.Flaw
import Scratchpad.CommandLine.Similarity
import Scratchpad.Text.Path

/-!
# Reading command lines

Arguments are read from the first to the last. An option that takes a value waits for it, unless the value
is attached, and what has been given is only taken in when the next thing is, so that of two flaws the
later one may be told first. Behind two dashes nothing is an option any more.

## Main definitions

* `binding?`: the name and the value of an environment variable.
* `Arguments`: what a command line says.
* `Arguments.ofList`: reads a command line.
-/

namespace Scratchpad.CommandLine

/-- The name and the value of an environment variable, which the first equals sign separates. There has to
be a name. -/
def binding? (s : String) : Option (String × String) :=
  let cs := s.toList
  let name := cs.takeWhile (· != '=')
  if name.isEmpty || name.length == cs.length then none
  else some (String.ofList name, String.ofList (cs.drop (name.length + 1)))

/-- What the user is told of a text that is no binding. -/
def bindingExpected (s : String) : String := "expected KEY=VALUE, got \x60" ++ s ++ "\x60"

/-- How far a command line has been read. -/
structure State where
  /-- What has been taken in, in order. Options without a value have an empty one. -/
  given : List (Parameter × String)
  /-- What waits to be taken in, once its value is there. -/
  waiting : Option (Parameter × Option String)
  /-- Whether two dashes have been passed. -/
  isPlain : Bool
  /-- Whether there has been a file. -/
  hasFile : Bool
deriving DecidableEq, Inhabited, Repr

/-- Reads arguments. What has been taken in stays so when there is a flaw. -/
abbrev Reader (α : Type) := ExceptT Flaw (StateM State) α

namespace Reader

variable {α : Type}

/-- The parameters that have been taken in. -/
def givenParameters : Reader (List Parameter) := return (← get).given.map (·.1)

/-- What is wrong with a value, if something is. -/
def valueFlaw? (p : Parameter) (value : String) : Option Flaw :=
  match p with
  | .file | .config | .workFolder => if value.isEmpty then some (.valueMissing p) else none
  | .environment =>
    if (binding? value).isSome then none else some (.valueInvalid p value (bindingExpected value))
  | _ => none

/-- Takes in a parameter. Only environment variables may be given more than once. -/
def takeIn (p : Parameter) (value : String) : Reader Unit := do
  if p ≠ .environment ∧ p ∈ (← givenParameters) then
    modify fun s => { s with given := s.given.filter (·.1 ≠ p) }
    throw (.givenTwice p)
  modify fun s => { s with given := s.given ++ [(p, value)] }
  match valueFlaw? p value with
  | some flaw => throw flaw
  | none => return

/-- Takes in what waits. -/
def settle : Reader Unit := do
  match (← get).waiting with
  | none => return
  | some (p, value) =>
    modify fun s => { s with waiting := none }
    match value with
    | none => throw (.valueMissing p)
    | some value => takeIn p value

/-- Takes in what waits and passes over what is wrong with it, because something else is wrong. -/
def settleAnyway : Reader Unit := tryCatch settle fun _ => return

/-- Takes in an option without a value. -/
def flag (p : Parameter) : Reader Unit := do
  settle
  if p = .help then throw .help else takeIn p ""

/-- Takes in an option with a value, or lets it wait for one. -/
def valued (p : Parameter) (attached : Option String) : Reader Unit := do
  settle
  match attached with
  | some value => takeIn p value
  | none => modify fun s => { s with waiting := some (p, none) }

/-- There is no such argument. -/
def unknown (argument : String) (similar : Option Parameter) (mayBeValue : Bool) (given : List Parameter) :
    Reader α :=
  throw (.unknown argument similar mayBeValue given)

/-- An option by its name. The usage that goes with an unknown name shows the option that may be meant. -/
def long (name : String) (attached : Option String) : Reader Unit := do
  match Parameter.ofLong? name with
  | some p =>
    if p.takesValue then valued p attached
    else
      match attached with
      | none => flag p
      | some value =>
        let given ← givenParameters
        settleAnyway
        throw (.unexpectedValue p value (given.filter (· ≠ .file) ++ [p]))
  | none =>
    settleAnyway
    let similar := (Similarity.best? name (Parameter.options.filterMap (·.long?))).bind Parameter.ofLong?
    unknown ("--" ++ name) similar similar.isNone ((← givenParameters) ++ similar.toList)

/-- Options by their letters. What follows the letter of an option that takes a value is its value. -/
def short : List Char → Reader Unit
  | [] => return
  | c :: cs => do
    match Parameter.ofShort? c with
    | some p =>
      if p.takesValue then
        valued p (match cs with
          | [] => none
          | '=' :: value => some (String.ofList value)
          | value => some (String.ofList value))
      else do flag p; short cs
    | none =>
      settleAnyway
      unknown ("-" ++ c.toString) none true []

/-- The file. -/
def file (path : String) : Reader Unit := do
  let s ← get
  if s.hasFile then
    settleAnyway
    unknown path none (!s.isPlain && path.toList.head? == some '-' && path != "-") []
  else
    settle
    modify fun s => { s with waiting := some (.file, some path), hasFile := true }

/-- One argument. -/
def argument (a : String) : Reader Unit := do
  let s ← get
  if s.isPlain then file a
  else
    match a.toList with
    | ['-', '-'] => set { s with isPlain := true }
    | '-' :: '-' :: name =>
      let value := name.dropWhile (· != '=')
      long (String.ofList (name.takeWhile (· != '=')))
        (if value.isEmpty then none else some (String.ofList (value.drop 1)))
    | '-' :: c :: cs => short (c :: cs)
    | _ =>
      match s.waiting with
      | some (p, none) => set { s with waiting := some (p, some a) }
      | _ => file a

/-- All arguments. There has to be a file in the end. -/
def arguments (as : List String) : Reader Unit := do
  as.forM argument
  settle
  let given ← givenParameters
  if .file ∉ given then throw (.fileMissing given)

end Reader

/-! ## What a command line says -/

/-- What a command line says. -/
structure Arguments where
  file : String
  /-- Whether the file is run again whenever it changes. -/
  isWatched : Bool
  /-- Whether output may tell the lines that it comes from. -/
  matchesLines : Bool
  /-- Variables for the program, in the order in which they are given. -/
  environment : List (String × String)
  /-- Whether events are written for other programs to read. -/
  asJson : Bool
  config : Option String
  workFolder : Option String
  program : Option String
deriving DecidableEq, Inhabited, Repr

namespace Arguments

/-- What has been taken in, in order. -/
def ofGiven (given : List (Parameter × String)) : Arguments where
  file := (given.lookup .file).getD ""
  isWatched := (given.lookup .watch).isSome
  matchesLines := (given.lookup .noMatchLines).isNone
  environment := given.filterMap fun (p, value) => if p = .environment then binding? value else none
  asJson := (given.lookup .json).isSome
  config := given.lookup .config
  workFolder := given.lookup .workFolder
  program := given.lookup .program

/-- Reads a command line without the name of the tool. -/
def ofList (as : List String) : Except Flaw Arguments :=
  match (Reader.arguments as).run ⟨[], none, false, false⟩ with
  | (.ok (), s) => .ok (ofGiven s.given)
  | (.error flaw, _) => .error flaw

end Arguments

/-- How the tool is called when its name is not known. -/
def defaultTool : String := "tsplay"

/-- How the tool is called, given the path by which it was started. -/
def toolName (path : String) : String := (Path.fileName? path).getD defaultTool

end Scratchpad.CommandLine
