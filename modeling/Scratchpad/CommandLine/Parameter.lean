/-!
# Parameters of the command line

What can be given on the command line: a file, and options, some of which take a value. From the table of
parameters follow the text that explains how to use the tool and the short reminders in messages.

## Main definitions

* `Parameter`: what can be given.
* `Parameter.long?`, `Parameter.short?`, `Parameter.valueName?`: how it is given.
* `usage`, `explanation`: how the tool is used.
-/

namespace Scratchpad.CommandLine

/-- What can be given on the command line. -/
inductive Parameter where
  | file
  | watch
  | noMatchLines
  | environment
  | json
  | config
  | workFolder
  | program
  | help
deriving DecidableEq, Inhabited, Repr

namespace Parameter

/-- All options, in the order in which they are explained. -/
def options : List Parameter :=
  [watch, noMatchLines, environment, json, config, workFolder, program, help]

/-- The name behind two dashes. -/
def long? : Parameter → Option String
  | file => none
  | watch => some "watch"
  | noMatchLines => some "no-match-lines"
  | environment => some "env"
  | json => some "json"
  | config => some "config"
  | workFolder => some "workdir"
  | program => some "node"
  | help => some "help"

/-- The letter behind one dash. -/
def short? : Parameter → Option Char
  | environment => some 'e'
  | help => some 'h'
  | _ => none

/-- How the value is called, if there is one. -/
def valueName? : Parameter → Option String
  | file => some "FILE"
  | environment => some "KEY=VALUE"
  | config => some "PATH"
  | workFolder => some "DIR"
  | program => some "PROGRAM"
  | _ => none

/-- Whether a value is taken. -/
def takesValue (p : Parameter) : Bool := p.valueName?.isSome

/-- What a parameter is for. -/
def purpose : Parameter → String
  | file => "TypeScript file to run"
  | watch => "Re-run whenever the file changes"
  | noMatchLines => "Do not annotate console calls with their source line"
  | environment => "Extra environment variable for the program (repeatable)"
  | json => "Print run events as JSON lines"
  | config => "Config file [default: ./tsplay.toml when present]"
  | workFolder => "Directory for the composed files [default: a fresh temporary directory]"
  | program => "Program that executes the composed entry file"
  | help => "Print help"

/-- How a parameter is written. -/
def written (p : Parameter) : String :=
  let value := (p.valueName?.map fun name => "<" ++ name ++ ">").getD ""
  match p.long? with
  | none => value
  | some name => "--" ++ name ++ (if p.takesValue then " " ++ value else "")

/-- The option with a name. -/
def ofLong? (name : String) : Option Parameter := options.find? (·.long? = some name)

/-- The option with a letter. -/
def ofShort? (letter : Char) : Option Parameter := options.find? (·.short? = some letter)

end Parameter

open Parameter

/-- Parameters, each one where it first stands. -/
def distinct : List Parameter → List Parameter
  | [] => []
  | p :: ps => p :: (distinct ps).filter (· ≠ p)

/-- How the tool is used, for someone who has given some parameters already. -/
def usage (tool : String) (given : List Parameter) : String :=
  let options :=
    if given.isEmpty then ["[OPTIONS]"]
    else ((distinct given).filter (· ≠ file)).map written
  "Usage: " ++ " ".intercalate (tool :: options ++ [file.written])

/-- How an option is written where it is explained. Options without a letter are indented as if they had
one. -/
def explained (p : Parameter) : String :=
  (match p.short? with
    | some letter => "  -" ++ letter.toString ++ ", "
    | none => "      ") ++ p.written

/-- Text with blanks up to a width. -/
def filledTo (width : Nat) (s : String) : String :=
  s ++ String.ofList (List.replicate (width - s.length) ' ')

/-- What the tool does. -/
def about : String := "Run a TypeScript file and map its console output back to source lines"

/-- All about the tool. The purposes of the options are aligned two blanks behind the longest option. -/
def explanation (tool : String) : String :=
  let width := (options.map fun p => (explained p).length).foldl max 0 + 2
  let lines := options.map fun p => filledTo width (explained p) ++ p.purpose ++ "\n"
  about ++ "\n\n" ++ usage tool [] ++ "\n\nArguments:\n  " ++ file.written ++ "  " ++ file.purpose ++
    "\n\nOptions:\n" ++ String.join lines

end Scratchpad.CommandLine
