import Scratchpad.Machine.Shell.Format
import Scratchpad.Machine.Shell.State

/-!
# Commands of a shell

Commands that a shell carries out itself, apart from those that carry out others.

## Main definitions

* `Test.holds?`: whether a condition holds.
* `Builtin.find?`: the command with a name.
-/

namespace Scratchpad.Machine.Shell

namespace Test

/-- Conditions on one text. -/
def unary (s : State) (sign argument : String) : Option Bool :=
  let found : Option Entry :=
    match s.tree.locate s.here argument with
    | .ok way => s.tree.find? way
    | .error _ => none
  match sign with
  | "-n" => some (!argument.isEmpty)
  | "-z" => some argument.isEmpty
  | "-e" | "-r" | "-w" => some found.isSome
  | "-f" => some (match found with | some (.file _) | some .program => true | _ => false)
  | "-d" => some (found == some .folder)
  | "-x" => some (found == some .folder || found == some .program)
  | "-s" => some (match found with | some (.file bytes) => !bytes.isEmpty | some _ => true | none => false)
  | "-L" | "-h" | "-p" | "-S" | "-b" | "-t" => some false
  | "-c" => some (found == some .sink || found == some .zeros)
  | _ => none

/-- Conditions on two numbers. -/
def comparisons : List (String × (Int → Int → Bool)) :=
  [("-eq", fun a b => a == b), ("-ne", fun a b => a != b), ("-lt", fun a b => a < b),
    ("-le", fun a b => a ≤ b), ("-gt", fun a b => b < a), ("-ge", fun a b => b ≤ a)]

/-- Conditions on two texts. -/
def textComparisons : List (String × (String → String → Bool)) :=
  [("=", fun a b => a == b), ("==", fun a b => a == b), ("!=", fun a b => a != b),
    ("<", fun a b => a < b), (">", fun a b => b < a)]

/-- The number that a text stands for. -/
def number (s : String) : Except String Int :=
  let trimmed := (s.toList.dropWhile (· == ' ')).reverse.dropWhile (· == ' ')
  match (String.ofList trimmed.reverse).toInt? with
  | some n => .ok n
  | none => .error ("Illegal number: " ++ s)

/-- A condition on two texts. -/
def binary? (a sign b : String) : Option (Except String Bool) :=
  match textComparisons.lookup sign, comparisons.lookup sign with
  | some f, _ => some (.ok (f a b))
  | none, some f => some do return f (← number a) (← number b)
  | none, none => none

/-- Whether a condition holds. An unreadable one is told. -/
def holds (s : State) : Nat → List String → Except String Bool
  | 0, _ => .ok false
  | fuel + 1, words =>
    let joined : Option (Except String Bool) :=
      match words.idxOf? "-o", words.idxOf? "-a" with
      | some n, _ =>
        if n == 0 || n + 1 == words.length then none
        else some do return (← holds s fuel (words.take n)) || (← holds s fuel (words.drop (n + 1)))
      | none, some n =>
        if n == 0 || n + 1 == words.length then none
        else some do return (← holds s fuel (words.take n)) && (← holds s fuel (words.drop (n + 1)))
      | none, none => none
    match words with
    | [] => .ok false
    | [a] => .ok (!a.isEmpty)
    | ["!", a] => .ok a.isEmpty
    | [sign, a] =>
      match unary s sign a with
      | some b => .ok b
      | none => .error (sign ++ ": unexpected operator")
    | [a, sign, b] =>
      match binary? a sign b with
      | some r => r
      | none =>
        if a == "!" then do return !(← holds s fuel [sign, b])
        else if a == "(" && b == ")" then holds s fuel [sign]
        else joined.getD (.error (sign ++ ": unexpected operator"))
    | "!" :: rest => do return !(← holds s fuel rest)
    | words => joined.getD (.error ((words[1]?.getD "") ++ ": unexpected operator"))

end Test

namespace Builtin

/-- A command of a shell. -/
abbrev Run := List String → State → State

/-- The code that a text stands for. Codes are told in one byte. -/
def code? (text : String) : Option UInt8 := text.toNat?.map UInt8.ofNat

/-- Ends something with a code that may be given. -/
def ending (name : String) (f : State → UInt8 → State) : Run := fun words s =>
  match words with
  | [] => f s s.status
  | text :: _ =>
    match code? text with
    | some n => f s n
    | none => { s.complain (name ++ ": Illegal number: " ++ text) 2 with flow := .exiting }

/-- Prints words, in which some characters may be escaped. -/
def echo : Run := fun words s =>
  let (isLine, words) := match words with
    | "-n" :: words => (false, words)
    | words => (true, words)
  let text := " ".intercalate words
  let (bytes, isEnded) := unescaped text.length text.toList
  (s.withStatus 0).print 1 (bytes ++ if isLine && !isEnded then [0x0A] else [])

def printf : Run := fun words s =>
  match if words.head? == some "--" then words.drop 1 else words with
  | [] => s.complain "printf: usage: printf format [arg ...]" 2
  | format :: arguments =>
    let r := Format.bytes format arguments
    let s := r.misfits.foldl (fun s text => s.complain ("printf: " ++ text ++ ": expected numeric value") 1) s
    (s.withStatus (if r.misfits.isEmpty then 0 else 1)).print 1 r.bytes

/-- Goes to another folder. -/
def cd : Run := fun words s =>
  let path := words.headD ((s.assigned.get? "HOME").getD ".")
  match s.tree.locate s.here path with
  | .ok way =>
    if s.tree.isFolder way then
      ({ s with here := way, status := 0 } : State).assign "PWD" ("/" ++ "/".intercalate way)
    else s.complain ("cd: can't cd to " ++ path) 2
  | .error _ => s.complain ("cd: can't cd to " ++ path) 2

def pwd : Run := fun _ s => (s.withStatus 0).printText 1 ("/" ++ "/".intercalate s.here ++ "\n")

/-- A word up to its first equals sign, and what stands behind that. -/
def bound (word : String) : String × Option String :=
  let cs := word.toList
  let name := cs.takeWhile (· != '=')
  match cs.drop name.length with
  | [] => (word, none)
  | _ :: value => (String.ofList name, some (String.ofList value))

/-- Sets variables, and gives them to programs if told to. -/
def declare (isExported : Bool) : Run := fun words s =>
  words.foldl (fun s word =>
    let (name, value) := bound word
    let s := match value with
      | some v => s.assign name v
      | none => s
    if isExported then s.offer name else s) (s.withStatus 0)

def unset : Run := fun words s =>
  words.foldl (fun s name => if name == "-v" || name == "-f" then s else s.forget name) (s.withStatus 0)

/-- Sets options and arguments. -/
def set : Run := fun words s =>
  let s := s.withStatus 0
  match words with
  | [] => s
  | "--" :: rest => { s with arguments := rest }
  | option :: rest =>
    match option.toList with
    | '-' :: options =>
      let s := if options.contains 'e' then { s with endsOnFailure := true } else s
      if rest.isEmpty then s else { s with arguments := if rest.head? == some "--" then rest.drop 1 else rest }
    | '+' :: options => if options.contains 'e' then { s with endsOnFailure := false } else s
    | _ => { s with arguments := option :: rest }

def shift : Run := fun words s =>
  let count := (words.head?.bind String.toNat?).getD 1
  if s.arguments.length < count then { s.complain "shift: can't shift that many" 2 with flow := .exiting }
  else { s with arguments := s.arguments.drop count, status := 0 }

/-- Whether a character stands between words. -/
def isBlank (c : Char) : Bool := c == ' ' || c == '\t'

/-- Sets variables to the words of a text. The last one gets all that is left. -/
def fill (text : List Char) : List String → State → State
  | [], s => s
  | [name], s =>
    s.assign name (String.ofList ((text.dropWhile isBlank).reverse.dropWhile isBlank).reverse)
  | name :: names, s =>
    let text := text.dropWhile isBlank
    fill (text.dropWhile (!isBlank ·)) names (s.assign name (String.ofList (text.takeWhile (!isBlank ·))))

/-- Reads a line into variables. -/
def read : Run := fun words s =>
  let names := words.filter (· != "-r")
  let line := s.input.takeWhile (· != 0x0A)
  let rest := s.input.drop line.length
  fill (Utf8.decode line).toList names { s with input := rest.drop 1, status := if rest.isEmpty then 1 else 0 }

/-- Signals that are told by name. -/
def signals : List (String × Nat) :=
  [("HUP", 1), ("INT", 2), ("QUIT", 3), ("ILL", 4), ("TRAP", 5), ("ABRT", 6), ("BUS", 7), ("FPE", 8),
    ("KILL", 9), ("USR1", 10), ("SEGV", 11), ("USR2", 12), ("PIPE", 13), ("ALRM", 14), ("TERM", 15),
    ("CHLD", 17), ("CONT", 18), ("STOP", 19), ("TSTP", 20), ("TTIN", 21), ("TTOU", 22), ("URG", 23),
    ("WINCH", 28)]

/-- Signals that have no effect unless a program asks for them. -/
def harmless : List Nat := [0, 17, 18, 23, 28]

/-- Signals that make a program stand still. -/
def stopping : List Nat := [19, 20, 21, 22]

/-- The signal with a name or a number. -/
def signal? (text : String) : Option Nat :=
  match text.toNat? with
  | some n => some n
  | none =>
    let cs := text.toList
    signals.lookup (if ['S', 'I', 'G'].isPrefixOf cs then String.ofList (cs.drop 3) else text)

/-- What a trap for a signal is called, which may be the end of the script. -/
def trapped? (text : String) : Option Nat := if text == "EXIT" then some 0 else signal? text

/-- Sets traps. A single word or a hyphen removes them. -/
def trap : Run := fun words s =>
  let s := s.withStatus 0
  match words with
  | [] => s
  | [name] => { s with traps := s.traps.filter fun t => some t.1 != trapped? name }
  | command :: names =>
    names.foldl (fun s name =>
      match trapped? name with
      | none => s.complain ("trap: " ++ name ++ ": bad trap") 1
      | some n =>
        let others := s.traps.filter (·.1 != n)
        { s with traps := if command == "-" then others else (n, command) :: others }) s

/-- Sends a signal to processes. -/
def kill : Run := fun words s =>
  let (signal, numbers) := match words with
    | "-s" :: name :: rest => (signal? name, rest)
    | option :: rest =>
      match option.toList with
      | '-' :: name => (signal? (String.ofList name), rest)
      | _ => (some 15, words)
    | [] => (some 15, [])
  match signal with
  | none => s.complain ("kill: invalid signal number or name: " ++ words.headD "") 2
  | some signal =>
    numbers.foldl (fun s text =>
      if text.toNat? == some s.number || text == "0" then
        if harmless.contains signal then s
        else if stopping.contains signal then { s with flow := .endless }
        else { s with flow := .killed signal }
      else if s.jobs.any fun j => some j.number == text.toNat? then s
      else s.complain "kill: No such process" 1) (s.withStatus 0)

/-- Waits for commands that were carried out meanwhile. -/
def wait : Run := fun words s =>
  let chosen := if words.isEmpty then s.jobs else s.jobs.filter fun j => words.contains (toString j.number)
  { s with
    now := chosen.foldl (fun t j => max t j.ending) s.now
    status := if words.isEmpty then 0 else (chosen.getLast?.map (·.status)).getD 127 }

/-- Leaves loops. -/
def leave (goesOn : Bool) : Run := fun words s =>
  { s with flow := .leaving ((words.head?.bind String.toNat?).getD 1) goesOn, status := 0 }

/-- Tells whether a condition holds. -/
def test (name : String) : Run := fun words s =>
  match Test.holds s (words.length + 1) words with
  | .ok b => s.withStatus (if b then 0 else 1)
  | .error message => s.complain (name ++ ": " ++ message) 2

/-- Tells whether a condition in brackets holds. -/
def bracket : Run := fun words s =>
  if words.getLast? == some "]" then test "[" words.dropLast s else s.complain "[: missing ]" 2

/-- All commands by name. -/
def all : List (String × Run) :=
  [(":", fun _ s => s.withStatus 0), ("true", fun _ s => s.withStatus 0), ("false", fun _ s => s.withStatus 1),
    ("echo", echo), ("printf", printf), ("cd", cd), ("pwd", pwd), ("export", declare true),
    ("readonly", declare false), ("local", declare false), ("unset", unset), ("set", set), ("shift", shift),
    ("read", read), ("kill", kill), ("wait", wait), ("break", leave false), ("continue", leave true),
    ("test", test "test"), ("[", bracket), ("umask", fun _ s => s.withStatus 0),
    ("trap", trap), ("ulimit", fun _ s => s.withStatus 0),
    ("exit", ending "exit" fun s n => s.exit n),
    ("return", ending "return" fun s n => { s with status := n, flow := .returning })]

/-- The command with a name. -/
def find? (name : String) : Option Run := all.lookup name

end Builtin

end Scratchpad.Machine.Shell
