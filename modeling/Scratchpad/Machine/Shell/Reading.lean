import Scratchpad.Machine.Shell.Syntax

/-!
# Reading scripts

Scripts are read one line of commands at a time, so that what stands before a mistake is carried out.

## Main definitions

* `Mistake`, `Mistake.message`: why a script cannot be read.
* `Reader`: reads from the text that is left.
* `commandLine?`: the commands on the next line of a script.
-/

namespace Scratchpad.Machine.Shell

/-- Why a script cannot be read. -/
inductive Mistake where
  | openQuote
  | badSubstitution
  | badName
  /-- Something stands where it cannot, or where something else has to stand. -/
  | unexpected (token : String) (expected : Option String)
deriving DecidableEq, Inhabited, Repr

/-- What the user is told. -/
def Mistake.message : Mistake → String
  | openQuote => "Syntax error: Unterminated quoted string"
  | badSubstitution => "Bad substitution"
  | badName => "Syntax error: Bad function name"
  | unexpected token expected =>
    "Syntax error: " ++ token ++ " unexpected" ++
      match expected with
      | none => ""
      | some e => " (expecting " ++ e ++ ")"

/-- Reads from the text that is left. -/
abbrev Reader := StateT (List Char) (Except Mistake)

namespace Reader

/-- A text in quotation marks. -/
def inQuotes (s : String) : String := "\"" ++ s ++ "\""

/-- The next character. -/
def peek? : Reader (Option Char) := do return (← get).head?

/-- Passes over characters. -/
def skip (count : Nat) : Reader Unit := modify (·.drop count)

/-- Whether the text that is left begins with another one, which is passed over then. -/
def accept (s : String) : Reader Bool := do
  if s.toList.isPrefixOf (← get) then
    skip s.length
    return true
  else return false

/-- Whether a character ends a word. -/
def endsWord (c : Char) : Bool := " \t\n;&|<>()".toList.contains c

/-- Whether a character may be part of a name. -/
def isNameChar (c : Char) : Bool := c.isAlphanum || c == '_'

/-- Whether a text is a name. -/
def isName (s : String) : Bool :=
  match s.toList with
  | [] => false
  | c :: cs => !c.isDigit && (c :: cs).all isNameChar

/-- Text without the blanks, the comment and the joined lines at its beginning. -/
def withoutBlanks : List Char → List Char
  | ' ' :: cs | '\t' :: cs => withoutBlanks cs
  | '\\' :: '\n' :: cs => withoutBlanks cs
  | '#' :: cs => cs.dropWhile (· != '\n')
  | cs => cs

/-- Passes over blanks. -/
def blanks : Reader Unit := modify withoutBlanks

/-- What the text begins with, as the user is told. -/
def tokenName (cs : List Char) : String :=
  match cs with
  | [] => "end of file"
  | '\n' :: _ => "newline"
  | ';' :: ';' :: _ => inQuotes ";;"
  | '&' :: '&' :: _ => inQuotes "&&"
  | '|' :: '|' :: _ => inQuotes "||"
  | c :: cs =>
    if endsWord c then inQuotes (String.singleton c)
    else
      let word := String.ofList ((c :: cs).takeWhile (!endsWord ·))
      if ["then", "else", "elif", "fi", "do", "done", "esac", "in", "\x7b", "\x7d", "!"].contains word then
        inQuotes word
      else "word"

/-- Fails because of what the text begins with. -/
def unexpected {α : Type} (expected : Option String) : Reader α := do
  blanks
  throw (.unexpected (tokenName (← get)) expected)

/-- The longest name at the beginning of the text. -/
def name : Reader String := do
  let name := (← get).takeWhile isNameChar
  skip name.length
  return String.ofList name

/-- Text up to a character, which is passed over. -/
def upTo (c : Char) : Reader String := do
  let inside := (← get).takeWhile (· != c)
  skip inside.length
  if ← accept (String.singleton c) then return String.ofList inside else throw .openQuote

/-- The text of an expression up to the two parentheses that end it, given how many are open. -/
def upToEnd : Nat → List Char → Option (List Char × List Char)
  | _, [] => none
  | 0, ')' :: ')' :: cs => some ([], cs)
  | depth, c :: cs =>
    let depth := if c == '(' then depth + 1 else if c == ')' then depth - 1 else depth
    (upToEnd depth cs).map fun (inside, rest) => (c :: inside, rest)

/-- Text between back quotes, in which a backslash before some characters is not part of the command. -/
def withinBackQuotes : List Char → Option (List Char × List Char)
  | [] => none
  | '\x60' :: cs => some ([], cs)
  | '\\' :: c :: cs =>
    (withinBackQuotes cs).map fun (inside, rest) =>
      (if ['\x60', '$', '\\'].contains c then (c :: inside, rest) else ('\\' :: c :: inside, rest))
  | c :: cs => (withinBackQuotes cs).map fun (inside, rest) => (c :: inside, rest)

/-- Reads from another text. -/
def readFrom {α : Type} (cs : List Char) (r : Reader α) : Reader α := do
  let rest ← get
  set cs
  let a ← r
  set rest
  return a

/-- Whether the text begins with a word of its own that is not quoted. It is passed over then. -/
def keyword (s : String) : Reader Bool := do
  blanks
  let cs ← get
  if s.toList.isPrefixOf cs && ((cs.drop s.length).head?.all endsWord) then
    skip s.length
    return true
  else return false

/-- Passes over blanks and line ends. -/
def lines : Nat → Reader Unit
  | 0 => blanks
  | n + 1 => do
    blanks
    if ← accept "\n" then lines n

/-- Passes over a keyword that has to follow. -/
def require (s : String) : Reader Unit := do
  if !(← keyword s) then unexpected (some (inQuotes s))

/-- Passes over a sign that has to follow. -/
def requireSign (s : String) : Reader Unit := do
  blanks
  if !(← accept s) then unexpected (some (inQuotes s))

/-- The words that end a list of commands. -/
def closers : List String := ["then", "else", "elif", "fi", "do", "done", "esac", "\x7d"]

/-- Whether a list of commands ends here. -/
def isListEnd : Reader Bool := do
  blanks
  let cs ← get
  let word := String.ofList (cs.takeWhile (!endsWord ·))
  return cs.isEmpty || cs.head? == some ')' || [';', ';'].isPrefixOf cs || closers.contains word

/-- The descriptor and the direction of a redirection, if one begins here. -/
def direction? : Reader (Option (Nat × Direction)) := do
  let digits := (← get).takeWhile Char.isDigit
  let rest := (← get).drop digits.length
  let given := (String.ofList digits).toNat?
  let found : Option (Nat × Nat × Direction) :=
    match rest with
    | '>' :: '>' :: _ => some (2, 1, .append)
    | '>' :: '&' :: _ => some (2, 1, .duplicate)
    | '>' :: '|' :: _ => some (2, 1, .write)
    | '>' :: _ => some (1, 1, .write)
    | '<' :: '&' :: _ => some (2, 0, .duplicate)
    | '<' :: '<' :: _ => some (2, 0, .text)
    | '<' :: _ => some (1, 0, .read)
    | _ => none
  match found with
  | none => return none
  | some (size, usual, direction) =>
    skip (digits.length + size)
    return some (given.getD usual, direction)

/-- How the value of a parameter may give way. -/
def alternatives : List (String × Alternative × Bool) :=
  [(":-", .standIn, true), ("-", .standIn, false), (":=", .assign, true), ("=", .assign, false),
    (":+", .replace, true), ("+", .replace, false)]

/-- Whether a part of a word is quoted. -/
def isQuotedPiece : Piece → Bool
  | .text _ isQuoted => isQuoted
  | _ => false

/-- The characters of a word that is not expanded. -/
def literalText (w : Word) : List Char :=
  w.flatMap fun p =>
    match p with
    | .text s _ => s.toList
    | _ => []

/-- Lines up to the one that says nothing but where they end, and what follows that. The lines may be
indented. -/
def linesUpTo (delimiter : List Char) (isIndented : Bool) : Nat → List Char → List Char × List Char
  | 0, cs => ([], cs)
  | fuel + 1, cs =>
    let cs := if isIndented then cs.dropWhile (· == '\t') else cs
    let line := cs.takeWhile (· != '\n')
    let rest := cs.drop (line.length + 1)
    if line == delimiter then ([], rest)
    else if cs.length ≤ line.length then (line, [])
    else
      let (more, rest) := linesUpTo delimiter isIndented fuel rest
      (line ++ '\n' :: more, rest)

mutual

/-- The pieces of a word up to its end. In quotes, only some characters mean anything. -/
def pieces (whole : List Char) (isEnd : Char → Bool) (isQuoted : Bool) : Nat → Reader Word
  | 0 => unexpected none
  | fuel + 1 => do
    match ← get with
    | [] => return []
    | c :: cs =>
      if isEnd c then return []
      let piece : Word ←
        match c, isQuoted with
        | '\\', false =>
          skip (min 2 (cs.length + 1))
          match cs with
          | [] => pure [Piece.text "\\" true]
          | '\n' :: _ => pure []
          | d :: _ => pure [Piece.text (String.singleton d) true]
        | '\\', true =>
          match cs with
          | '\n' :: _ =>
            skip 2
            pure []
          | d :: _ =>
            if ['$', '\x60', '"', '\\'].contains d then
              skip 2
              pure [Piece.text (String.singleton d) true]
            else
              skip 1
              pure [Piece.text "\\" true]
          | [] => throw .openQuote
        | '\'', false =>
          skip 1
          pure [Piece.text (← upTo '\'') true]
        | '"', false =>
          skip 1
          let inside ← pieces whole (· == '"') true fuel
          if !(← accept "\"") then throw .openQuote
          pure (Piece.text "" true :: inside)
        | '$', _ =>
          skip 1
          dollar whole isQuoted fuel
        | '\x60', _ =>
          match withinBackQuotes cs with
          | none => throw .openQuote
          | some (inside, rest) =>
            set rest
            let command ← readFrom inside (list inside fuel)
            pure [Piece.output command isQuoted]
        | c, _ =>
          skip 1
          pure [Piece.text (String.singleton c) isQuoted]
      return piece ++ (← pieces whole isEnd isQuoted fuel)

/-- What follows a dollar sign. -/
def dollar (whole : List Char) (isQuoted : Bool) : Nat → Reader Word
  | 0 => unexpected none
  | fuel + 1 => do
    match ← get with
    | '(' :: '(' :: cs =>
      match upToEnd 0 cs with
      | none => throw .openQuote
      | some (inside, rest) =>
        set rest
        return [.arithmetic (← readFrom inside (pieces inside (fun _ => false) true fuel)) isQuoted]
    | '(' :: _ =>
      skip 1
      let command ← list whole fuel
      requireSign ")"
      return [.output command isQuoted]
    | '\x7b' :: '#' :: c :: _ =>
      if c == '\x7d' then
        skip 3
        return [.parameter "#" isQuoted]
      else
        skip 2
        let name ← name
        if ← accept "\x7d" then return [.size name] else throw .badSubstitution
    | '\x7b' :: c :: _ =>
      skip 1
      let name ←
        if isNameChar c then name
        else do
          skip 1
          pure (String.singleton c)
      if ← accept "\x7d" then return [.parameter name isQuoted]
      for (sign, kind, isEmptyNone) in alternatives do
        if ← accept sign then
          let word ← pieces whole (· == '\x7d') isQuoted fuel
          if ← accept "\x7d" then return [.alternative name kind isEmptyNone word isQuoted]
          else throw .badSubstitution
      throw .badSubstitution
    | c :: _ =>
      if c.isDigit || "@*#?$!-".toList.contains c then
        skip 1
        return [.parameter (String.singleton c) isQuoted]
      else if isNameChar c then return [.parameter (← name) isQuoted]
      else return [.text "$" isQuoted]
    | [] => return [.text "$" isQuoted]

/-- A word, if one begins here. -/
def word? (whole : List Char) : Nat → Reader (Option Word)
  | 0 => unexpected none
  | fuel + 1 => do
    blanks
    match ← peek? with
    | none => return none
    | some c => if endsWord c then return none else return some (← pieces whole endsWord false fuel)

/-- A redirection, if one begins here. -/
def redirection? (whole : List Char) : Nat → Reader (Option Redirection)
  | 0 => unexpected none
  | fuel + 1 => do
    blanks
    match ← direction? with
    | none => return none
    | some (descriptor, .text) =>
      let isIndented ← accept "-"
      match ← word? whole fuel with
      | none => unexpected none
      | some delimiter =>
        let cs ← get
        let line := cs.takeWhile (· != '\n')
        let (body, rest) := linesUpTo (literalText delimiter) isIndented cs.length (cs.drop (line.length + 1))
        set (line ++ '\n' :: rest)
        if delimiter.any isQuotedPiece then
          return some (.mk descriptor .text [.text (String.ofList body) true])
        else
          return some (.mk descriptor .text (← readFrom body (pieces body (fun _ => false) true fuel)))
    | some (descriptor, direction) =>
      match ← word? whole fuel with
      | none => unexpected none
      | some word => return some (.mk descriptor direction word)

/-- All redirections that follow. -/
def redirections (whole : List Char) : Nat → Reader (List Redirection)
  | 0 => unexpected none
  | fuel + 1 => do
    match ← redirection? whole fuel with
    | none => return []
    | some r => return r :: (← redirections whole fuel)

/-- Words and redirections up to the end of a simple command. -/
def arguments (whole : List Char) : Nat → Reader (List Word × List Redirection)
  | 0 => unexpected none
  | fuel + 1 => do
    match ← redirection? whole fuel with
    | some r =>
      let (words, rs) ← arguments whole fuel
      return (words, r :: rs)
    | none =>
      match ← word? whole fuel with
      | none => return ([], [])
      | some w =>
        let (words, rs) ← arguments whole fuel
        return (w :: words, rs)

/-- The variables that a simple command sets. -/
def bindings (whole : List Char) : Nat → Reader (List (String × Word))
  | 0 => unexpected none
  | fuel + 1 => do
    blanks
    let cs ← get
    let name := cs.takeWhile isNameChar
    if isName (String.ofList name) && (cs.drop name.length).head? == some '=' then
      skip (name.length + 1)
      let value ← pieces whole endsWord false fuel
      return (String.ofList name, value) :: (← bindings whole fuel)
    else return []

/-- A command without anything that joins it to others. -/
def command (whole : List Char) : Nat → Reader Command
  | 0 => unexpected none
  | fuel + 1 => do
    blanks
    let line := 1 + (whole.count '\n' - (← get).count '\n')
    let compound ←
      if ← accept "(" then
        let body ← list whole fuel
        requireSign ")"
        pure (some (Command.apart body))
      else if ← keyword "\x7b" then
        let body ← list whole fuel
        require "\x7d"
        pure (some body)
      else if ← keyword "if" then pure (some (← branch whole fuel))
      else if ← keyword "while" then pure (some (← loop whole false fuel))
      else if ← keyword "until" then pure (some (← loop whole true fuel))
      else if ← keyword "for" then pure (some (← forEach whole fuel))
      else if ← keyword "case" then pure (some (← choice whole fuel))
      else pure none
    match compound with
    | some c =>
      match ← redirections whole fuel with
      | [] => return c
      | rs => return .redirected c rs
    | none =>
      if ← isListEnd then unexpected none
      let bound ← bindings whole fuel
      let start ← get
      let (words, rs) ← arguments whole fuel
      if bound.isEmpty && words.isEmpty && rs.isEmpty then unexpected none
      if words.length == 1 && (← peek?) == some '(' then
        skip 1
        blanks
        if !(← accept ")") then unexpected (some (inQuotes ")"))
        let name := String.ofList (start.takeWhile (!endsWord ·))
        if !isName name then throw .badName
        lines whole.length
        return .define name (← command whole fuel)
      return .simple line bound words rs

/-- What follows the word that begins a branch. -/
def branch (whole : List Char) : Nat → Reader Command
  | 0 => unexpected none
  | fuel + 1 => do
    let condition ← list whole fuel
    require "then"
    let thenPart ← list whole fuel
    if ← keyword "elif" then return .branch condition thenPart (← branch whole fuel)
    else if ← keyword "else" then
      let elsePart ← list whole fuel
      require "fi"
      return .branch condition thenPart elsePart
    else
      require "fi"
      return .branch condition thenPart .nothing

/-- The body of a loop. -/
def body (whole : List Char) : Nat → Reader Command
  | 0 => unexpected none
  | fuel + 1 => do
    lines whole.length
    require "do"
    let c ← list whole fuel
    require "done"
    return c

/-- What follows the word that begins a loop. -/
def loop (whole : List Char) (isUntil : Bool) : Nat → Reader Command
  | 0 => unexpected none
  | fuel + 1 => do
    let condition ← list whole fuel
    return .loop isUntil condition (← body whole fuel)

/-- What follows the word that begins a loop over words. -/
def forEach (whole : List Char) : Nat → Reader Command
  | 0 => unexpected none
  | fuel + 1 => do
    blanks
    let name ← name
    if !isName name then throw (.unexpected "Bad for loop variable" none)
    lines whole.length
    let words ←
      if ← keyword "in" then do
        let (words, _) ← arguments whole fuel
        pure (some words)
      else pure none
    blanks
    let _ ← accept ";"
    return .forEach name words (← body whole fuel)

/-- What follows the word that begins a choice. -/
def choice (whole : List Char) : Nat → Reader Command
  | 0 => unexpected none
  | fuel + 1 => do
    match ← word? whole fuel with
    | none => unexpected none
    | some w =>
      lines whole.length
      require "in"
      return .choice w (← clauses whole fuel)

/-- The clauses of a choice. -/
def clauses (whole : List Char) : Nat → Reader (List (List Word × Command))
  | 0 => unexpected none
  | fuel + 1 => do
    lines whole.length
    if ← keyword "esac" then return []
    let _ ← accept "("
    let patterns ← patterns whole fuel
    requireSign ")"
    let c ← list whole fuel
    blanks
    if ← accept ";;" then return (patterns, c) :: (← clauses whole fuel)
    else
      require "esac"
      return [(patterns, c)]

/-- The patterns of a clause. -/
def patterns (whole : List Char) : Nat → Reader (List Word)
  | 0 => unexpected none
  | fuel + 1 => do
    match ← word? whole fuel with
    | none => unexpected none
    | some w =>
      blanks
      if ← accept "|" then return w :: (← patterns whole fuel) else return [w]

/-- Commands that read what the ones before them print. -/
def pipes (whole : List Char) (first : Command) : Nat → Reader Command
  | 0 => unexpected none
  | fuel + 1 => do
    blanks
    match ← get with
    | '|' :: '|' :: _ => return first
    | '|' :: _ =>
      skip 1
      lines whole.length
      let second ← command whole fuel
      pipes whole (.pipeline first second) fuel
    | _ => return first

/-- A pipeline, whose result may be reversed. -/
def pipeline (whole : List Char) : Nat → Reader Command
  | 0 => unexpected none
  | fuel + 1 => do
    if ← keyword "!" then return .negation (← pipeline whole fuel)
    else pipes whole (← command whole fuel) fuel

/-- Pipelines that depend on the results of those before them. -/
def conditions (whole : List Char) (first : Command) : Nat → Reader Command
  | 0 => unexpected none
  | fuel + 1 => do
    blanks
    if ← accept "&&" then
      lines whole.length
      let second ← pipeline whole fuel
      conditions whole (.both first second) fuel
    else if ← accept "||" then
      lines whole.length
      let second ← pipeline whole fuel
      conditions whole (.either first second) fuel
    else return first

/-- The commands on a line. -/
def onLine (whole : List Char) : Nat → Reader Command
  | 0 => unexpected none
  | fuel + 1 => do
    let first ← conditions whole (← pipeline whole fuel) fuel
    blanks
    match ← get with
    | ';' :: ';' :: _ => return first
    | ';' :: _ =>
      skip 1
      restOfLine whole first fuel
    | '&' :: _ =>
      skip 1
      restOfLine whole (.background first) fuel
    | _ => return first

/-- The commands on the rest of a line. -/
def restOfLine (whole : List Char) (first : Command) : Nat → Reader Command
  | 0 => unexpected none
  | fuel + 1 => do
    if (← isListEnd) || (← peek?) == some '\n' then return first
    else return .sequence first (← onLine whole fuel)

/-- Lines of commands up to what ends them. -/
def list (whole : List Char) : Nat → Reader Command
  | 0 => unexpected none
  | fuel + 1 => do
    lines whole.length
    if ← isListEnd then return .nothing
    let first ← onLine whole fuel
    lines whole.length
    if ← isListEnd then return first
    else return .sequence first (← list whole fuel)

end

/-- How deep reading a script may go. Each character is passed over on a way through all kinds of commands. -/
def depth (whole : List Char) : Nat := 20 * (whole.length + 2)

/-- The commands on the next line, and the text behind them. There are none at the end of a script. -/
def commandLine? (whole rest : List Char) : Except Mistake (Option (Command × List Char)) := do
  let ((), rest) ← (lines whole.length).run rest
  if rest.isEmpty then return none
  let (c, rest) ← (onLine whole (depth whole)).run rest
  match rest with
  | [] => return some (c, [])
  | '\n' :: rest => return some (c, rest)
  | rest => throw (.unexpected (tokenName rest) none)

end Reader

end Scratchpad.Machine.Shell
