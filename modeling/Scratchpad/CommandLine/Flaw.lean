import Scratchpad.CommandLine.Parameter

/-!
# Flaws of command lines

Why a command line is not carried out: it asks how the tool is used, or something is wrong with it.

## Main definitions

* `Flaw`, `Flaw.message`: why, and what the user is told.
-/

namespace Scratchpad.CommandLine

/-- Why a command line is not carried out. -/
inductive Flaw where
  /-- It asks how the tool is used. -/
  | help
  /-- There is no such argument. One that is similar may be meant, or the argument may be meant as a
  value. -/
  | unknown (argument : String) (similar : Option Parameter) (mayBeValue : Bool) (given : List Parameter)
  /-- An option that takes no value has one. -/
  | unexpectedValue (parameter : Parameter) (value : String) (given : List Parameter)
  | valueMissing (parameter : Parameter)
  | valueInvalid (parameter : Parameter) (value reason : String)
  | givenTwice (parameter : Parameter)
  | fileMissing (given : List Parameter)
deriving DecidableEq, Inhabited, Repr

namespace Flaw

/-- What ends every message. -/
def reminder : String := "\n\nFor more information, try '--help'.\n"

/-- What the user is told, given how the tool is called. -/
def message (tool : String) : Flaw → String
  | help => explanation tool
  | unknown argument similar mayBeValue given =>
    let tip :=
      match similar with
      | some p => "\n\n  tip: a similar argument exists: '--" ++ p.long?.getD "" ++ "'"
      | none =>
        if mayBeValue then
          "\n\n  tip: to pass '" ++ argument ++ "' as a value, use '-- " ++ argument ++ "'"
        else ""
    "error: unexpected argument '" ++ argument ++ "' found" ++ tip ++ "\n\n" ++ usage tool given ++ reminder
  | unexpectedValue p value given =>
    "error: unexpected value '" ++ value ++ "' for '" ++ p.written ++ "' found; no more were expected\n\n" ++
      usage tool given ++ reminder
  | valueMissing p => "error: a value is required for '" ++ p.written ++ "' but none was supplied" ++ reminder
  | valueInvalid p value reason =>
    "error: invalid value '" ++ value ++ "' for '" ++ p.written ++ "': " ++ reason ++ reminder
  | givenTwice p =>
    "error: the argument '" ++ p.written ++ "' cannot be used multiple times\n\n" ++ usage tool [] ++ reminder
  | fileMissing given =>
    "error: the following required arguments were not provided:\n  " ++ Parameter.file.written ++ "\n\n" ++
      usage tool (given ++ [.file]) ++ reminder

end Flaw

end Scratchpad.CommandLine
