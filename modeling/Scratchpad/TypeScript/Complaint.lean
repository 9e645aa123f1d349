import Scratchpad.Text.Lines
import Scratchpad.TypeScript.Fault

/-!
# Complaints

A flaw is shown to the user with the line it is on, a caret below the place, and a description. The
description is found by looking for known codes in the diagnostic of the fault, in a fixed order of
preference; a diagnostic may also carry a description of its own behind the word `message`.

## Main definitions

* `description`: what the user is told of a diagnostic.
* `Complaint`: what the user is told of a flaw.
-/

namespace Scratchpad.TypeScript

open Scratchpad.Text

/-- Codes with a description, in the order of preference. -/
def knownCodes : List (String × String) :=
  [("TS1109", "Expression expected"),
    ("TS1005", "Expected token (likely missing semicolon, comma, or bracket)"),
    ("TS1002", "Unterminated string literal"),
    ("TS1003", "Identifier expected"),
    ("TS1128", "Declaration or statement expected"),
    ("TS1136", "Property assignment expected"),
    ("TS1160", "Tagged template expressions not allowed here"),
    ("TS2304", "Cannot find name"),
    ("TS1161", "Unterminated regular expression literal"),
    ("Eof", "Unexpected end of file (likely missing closing bracket or quote)")]

/-- A text without the characters at both ends that satisfy a test. -/
def trimBoth (p : Char → Bool) (cs : List Char) : List Char :=
  ((cs.dropWhile p).reverse.dropWhile p).reverse

/-- What a diagnostic carries as its own description: what stands behind the word `message`, up to a
comma or closing brace. -/
def ownDescription? (diagnostic : List Char) : Option (List Char) := do
  let rest ← after? "message:".toList diagnostic
  let stop := fun c => c == ',' || c == '\x7d'
  if rest.any stop then
    return trimBoth (· == '"') (trimBoth (· == ' ') (rest.takeWhile (!stop ·)))
  else none

/-- What the user is told of a diagnostic. -/
def description (diagnostic : String) : String :=
  let cs := diagnostic.toList
  match knownCodes.find? fun (code, _) => occursIn code.toList cs with
  | some (_, text) => text
  | none =>
    match ownDescription? cs with
    | some own => String.ofList own
    | none => "Syntax error"

/-- The record in which the diagnostic of a flaw is kept. -/
def Flaw.diagnostic (flaw : Flaw) : String :=
  "Error \x7b error: (" ++ toString flaw.pos ++ ", " ++ flaw.fault.diagnostic ++ ") \x7d"

/-- What the user is told of a flaw: its line and a text with an excerpt. -/
structure Complaint where
  line : Nat
  message : String
deriving DecidableEq, Repr

namespace Complaint

/-- The complaint about a diagnostic at a position of a text. -/
def about (cs : List Char) (pos : Nat) (diagnostic : String) : Complaint :=
  let line := lineAt cs pos
  let caret := String.ofList (List.replicate (columnAt cs pos) ' ') ++ "^"
  { line
    message := "Parse error at line " ++ toString line ++ ":\n  " ++
      String.ofList (lineTextAt cs pos) ++ "\n  " ++ caret ++ "\n" ++ description diagnostic }

/-- The complaint about a flaw of a text. -/
def ofFlaw (cs : List Char) (flaw : Flaw) : Complaint :=
  .about cs flaw.pos flaw.diagnostic

end Complaint

end Scratchpad.TypeScript
