import Scratchpad.TypeScript.Fault

/-!
# Tokens

A token is a lexeme with the place where it stands and whether a line ended in front of it. A scanner
may find a flaw and still deliver a token; such flaws travel with the token and count when the token
is reached. A lexeme that cannot be read at all is `broken`.

## Main definitions

* `Lexeme`, `Token`: what a scanner delivers.
* `Notice`: a flaw with the kind of code in which it counts.
* `isReservedWord`: the words that never name a variable.
-/

namespace Scratchpad.TypeScript

/-- The code in which a flaw counts. -/
inductive Scope where
  /-- Everywhere. -/
  | anywhere
  /-- In strict code, and so in every module. -/
  | strictCode
  /-- In modules only. -/
  | moduleCode
deriving DecidableEq, Inhabited

/-- A flaw that a scanner met and could step over. -/
structure Notice where
  flaw : Flaw
  scope : Scope := .anywhere
deriving DecidableEq, Inhabited

/-- The smallest units of meaning. -/
inductive Lexeme where
  /-- A name or keyword; a spelling with escapes is never a keyword. -/
  | word (text : String) (isEscaped : Bool)
  | number (raw : String)
  | bigint (raw : String)
  | text (raw value : String)
  /-- Punctuation; a template begins with its quotation mark alone. -/
  | mark (text : String)
  | broken (flaw : Flaw)
  | done
deriving DecidableEq, Inhabited

/-- A lexeme in its place. -/
structure Token where
  lexeme : Lexeme
  start : Nat
  stop : Nat
  /-- Whether a line ends between the token before and this one. -/
  startsLine : Bool
  notices : List Notice
deriving DecidableEq, Inhabited

namespace Lexeme

/-- A lexeme as a message names it. -/
def shown : Lexeme → String
  | word w _ => w
  | number raw => "numeric literal (" ++ raw ++ ", " ++ raw ++ ")"
  | bigint raw => "bigint literal (" ++ raw ++ ")"
  | text raw value => "string literal (" ++ value ++ ", " ++ raw ++ ")"
  | mark m => m
  | broken _ => "<lexing error>"
  | done => "<eof>"

/-- Whether the lexeme is the given punctuation. -/
def isMark (l : Lexeme) (s : String) : Bool :=
  match l with
  | mark t => t == s
  | _ => false

/-- Whether the lexeme is the given word, spelled without escapes. -/
def isWord (l : Lexeme) (s : String) : Bool :=
  match l with
  | word t false => t == s
  | _ => false

/-- Whether the lexeme is any word, keywords included. -/
def isAnyWord : Lexeme → Bool
  | word .. => true
  | _ => false

end Lexeme

/-- Words that are keywords wherever they stand. -/
def keywords : List String :=
  ["break", "case", "catch", "class", "const", "continue", "debugger", "default", "delete", "do",
    "else", "export", "extends", "false", "finally", "for", "function", "if", "import", "in",
    "instanceof", "new", "null", "return", "super", "switch", "this", "throw", "true", "try",
    "typeof", "var", "void", "while", "with"]

/-- Whether a word never names a variable. -/
def isReservedWord (w : String) : Bool :=
  keywords.contains w || w == "enum"

/-- Words that strict code reserves in addition. -/
def isStrictReservedWord (w : String) : Bool :=
  ["implements", "interface", "package", "private", "protected", "public"].contains w

/-- Operators between two operands, with how strongly they bind. -/
def binaryPrecedence (op : String) : Option Nat :=
  match op with
  | "??" | "||" => some 1
  | "&&" => some 2
  | "|" => some 3
  | "^" => some 4
  | "&" => some 5
  | "==" | "!=" | "===" | "!==" => some 6
  | "<" | "<=" | ">" | ">=" | "in" | "instanceof" => some 7
  | "<<" | ">>" | ">>>" => some 8
  | "+" | "-" => some 9
  | "*" | "/" | "%" => some 10
  | "**" => some 11
  | _ => none

/-- Operators that assign. -/
def isAssignmentOperator (op : String) : Bool :=
  ["=", "+=", "-=", "*=", "/=", "%=", "**=", "<<=", ">>=", ">>>=", "&=", "|=", "^=", "&&=", "||=",
    "??="].contains op

end Scratchpad.TypeScript
