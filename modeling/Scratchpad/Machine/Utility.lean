import Scratchpad.Channel
import Scratchpad.Environment
import Scratchpad.Machine.Tree
import Scratchpad.Sandbox.Pipe

/-!
# Utilities

Small programs that every machine has. They look at files, at their arguments and at their environment,
print something and end. A few of them change files.

## Main definitions

* `Call`, `Result`: what a utility is given, and what becomes of it.
* `Utility.find?`: the utility with a name.
-/

namespace Scratchpad.Machine

/-- What a utility is given. -/
structure Call where
  arguments : List String
  environment : Environment
  input : List UInt8
  tree : Tree
  /-- The folder from which paths lead. -/
  here : Way
deriving Inhabited

/-- What becomes of a utility. -/
structure Result where
  prints : List (Channel × List UInt8) := []
  code : UInt8 := 0
  /-- How many milliseconds it takes. -/
  duration : Nat := 0
  /-- Whether it never ends. -/
  isEndless : Bool := false
  /-- Whether it reads all of its input. -/
  takesInput : Bool := false
  /-- The files afterwards, if it changes any. -/
  tree : Option Tree := none
deriving Inhabited

namespace Utility

/-- A utility. -/
abbrev Run := Call → Result

/-- Prints a text. -/
def out (s : String) : Channel × List UInt8 := (.standardOutput, Utf8.encode s)

/-- Prints a complaint. -/
def complaint (s : String) : Channel × List UInt8 := (.standardError, Utf8.encode s)

/-- Ends with a complaint. -/
def failing (s : String) (code : UInt8) : Result := { prints := [complaint s], code := code }

/-- The lines of a text. -/
def linesOf (bytes : List UInt8) : List (List UInt8) :=
  let (lines, rest) := Sandbox.Pipe.frame bytes
  if rest.isEmpty then lines else lines ++ [rest]

/-- A number of milliseconds from a decimal number of seconds. -/
def duration? (s : String) : Option Nat :=
  let cs := s.toList
  let whole := cs.takeWhile Char.isDigit
  match cs.dropWhile Char.isDigit with
  | [] => if whole.isEmpty then none else some ((String.ofList whole).toNat?.getD 0 * 1000)
  | '.' :: fraction =>
    if fraction.all Char.isDigit && !(whole.isEmpty && fraction.isEmpty) then
      let kept := (fraction ++ ['0', '0', '0']).take 3
      some ((String.ofList whole).toNat?.getD 0 * 1000 + (String.ofList kept).toNat?.getD 0)
    else none
  | ['s'] => (String.ofList whole).toNat?.map (· * 1000)
  | ['m'] => (String.ofList whole).toNat?.map (· * 60000)
  | _ => none

/-- Does something with the contents of files, or with the input if there are none. -/
def withContents (name : String) (files : List String) (c : Call) (f : List UInt8 → List UInt8) : Result :=
  let one (path : String) : Channel × List UInt8 × UInt8 :=
    if path = "-" then (.standardOutput, f c.input, 0)
    else
      match c.tree.read c.here path with
      | .ok bytes => (.standardOutput, f bytes, 0)
      | .error fault => (.standardError, Utf8.encode (name ++ ": " ++ path ++ ": " ++ fault.name ++ "\n"), 1)
  let parts := (if files.isEmpty then ["-"] else files).map one
  { prints := parts.map fun (channel, bytes, _) => (channel, bytes)
    code := if parts.any fun (_, _, code) => code != 0 then 1 else 0
    takesInput := files.isEmpty || files.contains "-" }

def cat : Run := fun c => withContents "cat" c.arguments c id

def echo : Run := fun c =>
  match c.arguments with
  | "-n" :: words => { prints := [out (" ".intercalate words)] }
  | words => { prints := [out (" ".intercalate words ++ "\n")] }

def printenv : Run := fun c =>
  match c.arguments with
  | [] => { prints := c.environment.bindings.map fun (n, v) => out (n ++ "=" ++ v ++ "\n") }
  | names =>
    let values := names.map c.environment.get?
    { prints := values.filterMap fun v => v.map fun s => out (s ++ "\n")
      code := if values.all Option.isSome then 0 else 1 }

def sleep : Run := fun c =>
  let times := c.arguments.map duration?
  if times.isEmpty then failing "sleep: missing operand\nTry 'sleep --help' for more information.\n" 1
  else
    match (c.arguments.zip times).find? (·.2.isNone) with
    | some (bad, _) =>
      failing ("sleep: invalid time interval '" ++ bad ++
        "'\nTry 'sleep --help' for more information.\n") 1
    | none => { duration := (times.filterMap id).foldl (· + ·) 0 }

/-- Whole numbers from one to another. -/
def sequence (first step last : Int) : List Int :=
  if step = 0 then []
  else
    let count := ((last - first) / step + 1).toNat
    (List.range (min count 100000)).map fun (k : Nat) => first + step * k

def seq : Run := fun c =>
  let print (ns : List Int) : Result := { prints := [out (String.join (ns.map fun n => toString n ++ "\n"))] }
  match c.arguments.mapM String.toInt? with
  | some [last] => print (sequence 1 1 last)
  | some [first, last] => print (sequence first 1 last)
  | some [first, step, last] => print (sequence first step last)
  | _ => failing "seq: invalid argument\n" 1

/-- How many lines or bytes are asked for, and the files. -/
def amount : List String → Bool × Nat × List String
  | "-n" :: n :: files => (false, n.toNat?.getD 10, files)
  | "-c" :: n :: files => (true, n.toNat?.getD 10, files)
  | option :: files =>
    match option.toList with
    | '-' :: 'n' :: ds => (false, (String.ofList ds).toNat?.getD 10, files)
    | '-' :: 'c' :: ds => (true, (String.ofList ds).toNat?.getD 10, files)
    | '-' :: d :: ds =>
      if d.isDigit then (false, (String.ofList (d :: ds)).toNat?.getD 10, files)
      else (false, 10, option :: files)
    | _ => (false, 10, option :: files)
  | [] => (false, 10, [])

def head : Run := fun c =>
  let (inBytes, n, files) := amount c.arguments
  withContents "head" files c fun bs => if inBytes then bs.take n else ((linesOf bs).take n).flatten

def tail : Run := fun c =>
  let (inBytes, n, files) := amount c.arguments
  let last {α : Type} (xs : List α) := xs.drop (xs.length - n)
  withContents "tail" files c fun bs => if inBytes then last bs else (last (linesOf bs)).flatten

def tac : Run := fun c => withContents "tac" c.arguments c fun bs => (linesOf bs).reverse.flatten

/-- How many words there are. -/
def wordCount (bytes : List UInt8) : Nat :=
  (bytes.foldl (fun (count, isInside) b =>
    let isBlank := b == 0x20 || (0x09 ≤ b && b ≤ 0x0D)
    (if isInside || isBlank then count else count + 1, !isBlank)) (0, false)).1

/-- A number in a column. -/
def inColumn (width n : Nat) : String :=
  let s := toString n
  String.ofList (List.replicate (width - s.length) ' ') ++ s

/-- Counts lines, words and bytes. Several counts stand in columns that are wide enough for the size of a
file. -/
def wc : Run := fun c =>
  let options := (c.arguments.filter fun a => a.toList.head? == some '-' && a != "-").flatMap fun a => a.toList.drop 1
  let files := c.arguments.filter fun a => a.toList.head? != some '-' || a == "-"
  let counters : List (Char × (List UInt8 → Nat)) :=
    [('l', List.count 0x0A), ('w', wordCount), ('c', List.length)]
  let chosen := counters.filter fun (name, _) => options.isEmpty || options.contains name
  let sizes := files.filterMap fun f => ((c.tree.read c.here f).toOption).map List.length
  let width := if chosen.length == 1 && files.length ≤ 1 then 1
    else if files.isEmpty then 7 else (toString (sizes.foldl (· + ·) 0)).length
  withContents "wc" files c fun bs =>
    Utf8.encode (" ".intercalate (chosen.map fun (_, f) => inColumn width (f bs)) ++
      (if files.isEmpty then "" else " " ++ " ".intercalate files) ++ "\n")

/-- The order of bytes. -/
def isBefore : List UInt8 → List UInt8 → Bool
  | [], _ => true
  | _ :: _, [] => false
  | a :: as, b :: bs => a < b || (a == b && isBefore as bs)

/-- Lines, all of which end with a line feed. -/
def endedLines (bs : List UInt8) : List (List UInt8) :=
  (linesOf bs).map fun l => if l.getLast? == some 0x0A then l else l ++ [0x0A]

def sort : Run := fun c =>
  withContents "sort" c.arguments c fun bs => ((endedLines bs).mergeSort isBefore).flatten

def rev : Run := fun c =>
  withContents "rev" c.arguments c fun bs =>
    Utf8.encode (String.join ((linesOf bs).map fun l =>
      let cs := Utf8.characters l
      String.ofList ((cs.filter (· != '\n')).reverse) ++ if cs.getLast? == some '\n' then "\n" else ""))

/-- Numbers the lines that are not empty. -/
def nl : Run := fun c =>
  let numbered (n : Nat) (lines : List (List UInt8)) : List UInt8 :=
    (lines.foldl (fun (out, n) l =>
      if l == [0x0A] then (out ++ Utf8.encode "       " ++ l, n)
      else (out ++ Utf8.encode (inColumn 6 n ++ "\t") ++ l, n + 1)) (([] : List UInt8), n)).1
  withContents "nl" c.arguments c fun bs => numbered 1 (endedLines bs)

/-- Copies the input to files as well. -/
def tee : Run := fun c =>
  let tree := c.arguments.foldl (fun t path => ((t.write c.here path c.input false).toOption).getD t) c.tree
  { prints := [(.standardOutput, c.input)], takesInput := true, tree := some tree }

/-- Changes files one after another, and complains about those that cannot be changed. -/
def changing (complaintOf : String → Fault → String) (change : Tree → String → Except Fault Tree)
    (paths : List String) (c : Call) : Result :=
  paths.foldl (fun r path =>
    let t := r.tree.getD c.tree
    match change t path with
    | .ok t => { r with tree := some t }
    | .error fault => { r with prints := r.prints ++ [complaint (complaintOf path fault ++ "\n")], code := 1 }) {}

def touch : Run := fun c =>
  changing (fun path fault => "touch: cannot touch '" ++ path ++ "': " ++ fault.name)
    (fun t path => if (t.read c.here path).toOption.isSome then .ok t else t.write c.here path [] false)
    c.arguments c

def mkdir : Run := fun c =>
  match c.arguments with
  | "-p" :: paths =>
    changing (fun path fault => "mkdir: cannot create directory '" ++ path ++ "': " ++ fault.name)
      (fun t path => t.makeFolders c.here path) paths c
  | paths =>
    changing (fun path fault => "mkdir: cannot create directory '" ++ path ++ "': " ++ fault.name)
      (fun t path => t.makeFolder c.here path) paths c

def rm : Run := fun c =>
  let isForced := c.arguments.any fun a => a.toList.head? == some '-' && a.toList.contains 'f'
  let isDeep := c.arguments.any fun a => a.toList.head? == some '-' && a.toList.contains 'r'
  let paths := c.arguments.filter fun a => a.toList.head? != some '-'
  changing (fun path fault => "rm: cannot remove '" ++ path ++ "': " ++ fault.name)
    (fun t path =>
      match t.locate c.here path with
      | .error fault => if isForced then .ok t else .error fault
      | .ok way =>
        match t.find? way with
        | none => if isForced then .ok t else .error .missing
        | some .folder => if isDeep then .ok ⟨t.entries.filter fun e => !way.isPrefixOf e.1⟩ else .error .isFolder
        | some _ => .ok (t.remove way))
    paths c

def ls : Run := fun c =>
  let path := c.arguments.headD "."
  match c.tree.locate c.here path with
  | .ok way =>
    match c.tree.find? way with
    | some .folder => { prints := (c.tree.namesIn way).map fun n => out (n ++ "\n") }
    | some _ => { prints := [out (path ++ "\n")] }
    | none => failing ("ls: cannot access '" ++ path ++ "': " ++ Fault.missing.name ++ "\n") 2
  | .error fault => failing ("ls: cannot access '" ++ path ++ "': " ++ fault.name ++ "\n") 2

def pwd : Run := fun c => { prints := [out ("/" ++ "/".intercalate c.here ++ "\n")] }

def basename : Run := fun c =>
  let path := c.arguments.headD ""
  { prints := [out ((Path.names path).getLastD "/" ++ "\n")] }

def dirname : Run := fun c => { prints := [out (Path.folder (c.arguments.headD "") ++ "\n")] }

/-- The bytes of a set of characters, in which some are escaped and some stand for ranges. -/
def setOf : List Char → List UInt8
  | [] => []
  | '\\' :: 'n' :: cs => 0x0A :: setOf cs
  | '\\' :: 'r' :: cs => 0x0D :: setOf cs
  | '\\' :: 't' :: cs => 0x09 :: setOf cs
  | '\\' :: '0' :: cs => 0x00 :: setOf cs
  | '\\' :: '\\' :: cs => 0x5C :: setOf cs
  | low :: '-' :: high :: cs =>
    ((List.range (high.toNat + 1 - low.toNat)).map fun n => UInt8.ofNat (low.toNat + n)) ++ setOf cs
  | c :: cs => Utf8.encode (String.singleton c) ++ setOf cs

def tr : Run := fun c =>
  let print (bytes : List UInt8) : Result := { prints := [(.standardOutput, bytes)], takesInput := true }
  match c.arguments with
  | ["-d", set] => print (c.input.filter fun b => !(setOf set.toList).contains b)
  | [set, others] =>
    let targets := setOf others.toList
    print (c.input.map fun b =>
      match (setOf set.toList).idxOf? b with
      | some n => (targets[n]?.or targets.getLast?).getD b
      | none => b)
  | _ => failing "tr: missing operand\nTry 'tr --help' for more information.\n" 1

/-- How many lines are printed of those that never end. -/
def manyLines : Nat := 1000

def yes : Run := fun c =>
  let line := if c.arguments.isEmpty then "y" else " ".intercalate c.arguments
  { prints := List.replicate manyLines (out (line ++ "\n")), isEndless := true }

/-- All utilities by name. -/
def all : List (String × Run) :=
  [("cat", cat), ("echo", echo), ("true", fun _ => {}), ("false", fun _ => { code := 1 }),
    ("printenv", printenv), ("env", fun c => printenv { c with arguments := [] }), ("sleep", sleep), ("seq", seq),
    ("head", head), ("tail", tail), ("tac", tac), ("rev", rev), ("nl", nl), ("sort", sort), ("tr", tr), ("wc", wc),
    ("tee", tee), ("touch", touch), ("mkdir", mkdir), ("rm", rm), ("ls", ls), ("pwd", pwd),
    ("basename", basename), ("dirname", dirname), ("yes", yes)]

/-- The utility with a name. -/
def find? (name : String) : Option Run := all.lookup name

end Utility

end Scratchpad.Machine
