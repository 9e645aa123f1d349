/-!
# Scripts of a shell

A script is made of commands. The simplest command is a list of words, of which the first one names what is
to be done. A word is made of pieces that stand for text: for themselves, or for what comes of expanding
them when the command is carried out.

## Main definitions

* `Piece`, `Word`: words before they are expanded.
* `Redirection`: where a descriptor of a command leads.
* `Command`: commands.
-/

namespace Scratchpad.Machine.Shell

/-- What the value of a parameter gives way to. -/
inductive Alternative where
  /-- A word stands in if there is no value. -/
  | standIn
  /-- A word stands in if there is no value, and becomes the value. -/
  | assign
  /-- A word takes the place of a value. -/
  | replace
deriving DecidableEq, Inhabited, Repr

/-- What a redirection does. -/
inductive Direction where
  | read
  | write
  | append
  /-- Leads to a text that stands in the script. -/
  | text
  /-- Leads where another descriptor leads, or nowhere at all. -/
  | duplicate
deriving DecidableEq, Inhabited, Repr

mutual

/-- A piece of a word. What comes of a quoted piece is not split any further. -/
inductive Piece where
  | text (s : String) (isQuoted : Bool)
  | parameter (name : String) (isQuoted : Bool)
  /-- A parameter, or a word in its place. An empty value may count as none. -/
  | alternative (name : String) (kind : Alternative) (isEmptyNone : Bool) (word : List Piece) (isQuoted : Bool)
  /-- How long the value of a parameter is. -/
  | size (name : String)
  /-- What a command prints. -/
  | output (command : Command) (isQuoted : Bool)
  /-- The value of an expression. -/
  | arithmetic (expression : List Piece) (isQuoted : Bool)

/-- Where a descriptor of a command leads. -/
inductive Redirection where
  | mk (descriptor : Nat) (direction : Direction) (word : List Piece)

/-- A command. -/
inductive Command where
  /-- Nothing is done. -/
  | nothing
  /-- Variables are set, and what the words say is done. It stands on a line. -/
  | simple (line : Nat) (bindings : List (String × List Piece)) (words : List (List Piece))
      (redirections : List Redirection)
  | sequence (first second : Command)
  /-- The second one is carried out if the first one succeeds. -/
  | both (first second : Command)
  /-- The second one is carried out if the first one fails. -/
  | either (first second : Command)
  | negation (command : Command)
  /-- The second one reads what the first one prints. -/
  | pipeline (first second : Command)
  /-- The script goes on meanwhile. -/
  | background (command : Command)
  | branch (condition thenPart elsePart : Command)
  /-- The body is carried out for as long as the condition succeeds, or until it does. -/
  | loop (isUntil : Bool) (condition body : Command)
  /-- The body is carried out for each word. -/
  | forEach (name : String) (words : Option (List (List Piece))) (body : Command)
  /-- The first clause with a fitting pattern is carried out. -/
  | choice (word : List Piece) (clauses : List (List (List Piece) × Command))
  /-- Leaves the state of the shell as it was. -/
  | apart (command : Command)
  | redirected (command : Command) (redirections : List Redirection)
  | define (name : String) (body : Command)

end

instance : Inhabited Piece := ⟨.text "" false⟩

instance : Inhabited Command := ⟨.nothing⟩

/-- A word before it is expanded. -/
abbrev Word := List Piece

end Scratchpad.Machine.Shell
