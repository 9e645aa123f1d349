import Scratchpad.Text.Lines

/-!
# Tokens of a table document

The text of a document is cut into tokens: marks of one character, blanks, comments, line ends, strings,
and bare words, which reach up to the next blank or mark. Every text can be cut, since a string whose end
is missing reaches to the end of its line, or of the text if it may span lines. Places are counted in
bytes.

## Main definitions

* `Span`: a stretch of a text.
* `Kind`, `Token`: what a text is cut into.
* `Token.ofText`: the tokens of a text, with one more for its end.

## Main statements

* `cut_append`: a token and what follows it make up the text.
-/

namespace Scratchpad.Toml

/-- How many bytes characters take up. -/
def byteSize (cs : List Char) : Nat := cs.foldl (fun n c => n + c.utf8Size) 0

/-- A stretch of a text, from one place to another. -/
structure Span where
  start : Nat
  stop : Nat
deriving DecidableEq, Inhabited, Repr

/-- The place where a stretch begins. -/
def Span.before (s : Span) : Span := ⟨s.start, s.start⟩

/-- The place where a stretch ends. -/
def Span.behind (s : Span) : Span := ⟨s.stop, s.stop⟩

/-- The stretch from the beginning of one stretch to the end of another. -/
def Span.to (s t : Span) : Span := ⟨s.start, t.stop⟩

/-- The ways to write a string. -/
inductive Quoting where
  /-- Between apostrophes, as it stands. -/
  | literal
  /-- Between quotation marks, with escapes. -/
  | basic
  /-- Between three apostrophes. -/
  | longLiteral
  /-- Between three quotation marks. -/
  | longBasic
deriving DecidableEq, Inhabited, Repr

/-- The kinds of tokens. -/
inductive Kind where
  | dot
  | equals
  | comma
  | openBracket
  | closeBracket
  | openBrace
  | closeBrace
  | blank
  | comment
  | lineEnd
  | string (quoting : Quoting)
  | bare
  | finish
deriving DecidableEq, Inhabited, Repr

/-- What a text is cut into. -/
structure Token where
  kind : Kind
  /-- Where it begins. -/
  start : Nat
  text : List Char
deriving DecidableEq, Inhabited, Repr

/-- Where a token stands. -/
def Token.span (t : Token) : Span := ⟨t.start, t.start + byteSize t.text⟩

/-! ## Cutting a text -/

/-- Whether a character is a blank within a line. -/
def isBlank (c : Char) : Bool := c == ' ' || c == '\t'

/-- The kind of a mark of one character. -/
def markKind? (c : Char) : Option Kind :=
  match c with
  | '.' => some .dot
  | '=' => some .equals
  | ',' => some .comma
  | '[' => some .openBracket
  | ']' => some .closeBracket
  | '\x7b' => some .openBrace
  | '\x7d' => some .closeBrace
  | '\n' => some .lineEnd
  | _ => none

/-- Whether a bare word goes on. -/
def isBare (c : Char) : Bool :=
  (markKind? c).isNone && !isBlank c && c != '#' && c != '\r'

/-- Puts characters in front of the first part. -/
def onto (front : List Char) (parts : List Char × List Char) : List Char × List Char :=
  (front ++ parts.1, parts.2)

/-- The rest of a string that ends at an apostrophe or with its line. -/
def cutLiteral : List Char → List Char × List Char
  | [] => ([], [])
  | c :: cs =>
    if c = '\'' then ([c], cs)
    else if c = '\n' then ([], c :: cs)
    else onto [c] (cutLiteral cs)

/-- Up to two more marks of the kind that ends a long string belong to it. -/
def cutClosing (mark : Char) : List Char → List Char × List Char
  | c :: d :: cs =>
    if c = mark then if d = mark then ([c, d], cs) else ([c], d :: cs)
    else ([], c :: d :: cs)
  | [c] => if c = mark then ([c], []) else ([], [c])
  | [] => ([], [])

/-- The rest of a string that ends at three apostrophes. -/
def cutLongLiteral : List Char → List Char × List Char
  | '\'' :: '\'' :: '\'' :: cs => onto ['\'', '\'', '\''] (cutClosing '\'' cs)
  | c :: cs => onto [c] (cutLongLiteral cs)
  | [] => ([], [])

/-- The rest of a string that ends at a quotation mark or with its line. A backslash keeps the mark behind
it from ending the string. -/
def cutBasic : List Char → List Char × List Char
  | '\\' :: '\\' :: cs => onto ['\\', '\\'] (cutBasic cs)
  | '\\' :: '"' :: cs => onto ['\\', '"'] (cutBasic cs)
  | '"' :: cs => (['"'], cs)
  | '\n' :: cs => ([], '\n' :: cs)
  | c :: cs => onto [c] (cutBasic cs)
  | [] => ([], [])

/-- The rest of a string that ends at three quotation marks. -/
def cutLongBasic : List Char → List Char × List Char
  | '\\' :: '\\' :: cs => onto ['\\', '\\'] (cutLongBasic cs)
  | '\\' :: '"' :: cs => onto ['\\', '"'] (cutLongBasic cs)
  | '"' :: '"' :: '"' :: cs => onto ['"', '"', '"'] (cutClosing '"' cs)
  | c :: cs => onto [c] (cutLongBasic cs)
  | [] => ([], [])

/-- The characters at the beginning of a text that satisfy a test, and the rest. -/
def cutWhile (p : Char → Bool) (cs : List Char) : List Char × List Char :=
  (cs.takeWhile p, cs.dropWhile p)

/-- The kind of the first token of a text, the token and what follows it. -/
def cut (c : Char) (cs : List Char) : Kind × List Char × List Char :=
  match markKind? c with
  | some kind => (kind, [c], cs)
  | none =>
    if isBlank c then (.blank, onto [c] (cutWhile isBlank cs))
    else if c = '#' then (.comment, onto [c] (cutWhile (fun d => d != '\r' && d != '\n') cs))
    else if c = '\r' then
      match cs with
      | '\n' :: rest => (.lineEnd, [c, '\n'], rest)
      | rest => (.lineEnd, [c], rest)
    else if c = '\'' then
      match cs with
      | '\'' :: '\'' :: rest => (.string .longLiteral, onto [c, c, c] (cutLongLiteral rest))
      | rest => (.string .literal, onto [c] (cutLiteral rest))
    else if c = '"' then
      match cs with
      | '"' :: '"' :: rest => (.string .longBasic, onto [c, c, c] (cutLongBasic rest))
      | rest => (.string .basic, onto [c] (cutBasic rest))
    else (.bare, onto [c] (cutWhile isBare cs))

/-- The tokens of a text that begins at a place. Each token takes at least one character, so that as many
steps as there are characters are enough. -/
def tokensFrom : (steps start : Nat) → List Char → List Token
  | _, start, [] => [⟨.finish, start, []⟩]
  | 0, start, _ => [⟨.finish, start, []⟩]
  | steps + 1, start, c :: cs =>
    let (kind, text, rest) := cut c cs
    ⟨kind, start, text⟩ :: tokensFrom steps (start + byteSize text) rest

/-- The tokens of a text, with one more for its end. An encoding mark at its beginning is passed over. -/
def Token.ofText (cs : List Char) : List Token :=
  match cs with
  | c :: rest =>
    if c = Text.encodingMark then tokensFrom rest.length c.utf8Size rest else tokensFrom cs.length 0 cs
  | [] => tokensFrom 0 0 []

/-! ## Nothing is lost -/

theorem cutLiteral_append (cs : List Char) : (cutLiteral cs).1 ++ (cutLiteral cs).2 = cs := by
  fun_induction cutLiteral cs <;> simp_all [onto]

theorem cutClosing_append (mark : Char) (cs : List Char) :
    (cutClosing mark cs).1 ++ (cutClosing mark cs).2 = cs := by
  fun_cases cutClosing mark cs <;> simp_all

theorem cutLongLiteral_append (cs : List Char) :
    (cutLongLiteral cs).1 ++ (cutLongLiteral cs).2 = cs := by
  fun_induction cutLongLiteral cs <;> simp_all [onto, cutClosing_append]

theorem cutBasic_append (cs : List Char) : (cutBasic cs).1 ++ (cutBasic cs).2 = cs := by
  fun_induction cutBasic cs <;> simp_all [onto]

theorem cutLongBasic_append (cs : List Char) : (cutLongBasic cs).1 ++ (cutLongBasic cs).2 = cs := by
  fun_induction cutLongBasic cs <;> simp_all [onto, cutClosing_append]

theorem cutWhile_append (p : Char → Bool) (cs : List Char) :
    (cutWhile p cs).1 ++ (cutWhile p cs).2 = cs := by
  simp [cutWhile]

/-- A token and what follows it make up the text. -/
theorem cut_append (c : Char) (cs : List Char) : (cut c cs).2.1 ++ (cut c cs).2.2 = c :: cs := by
  unfold cut
  split
  · simp
  · repeat' split
    all_goals simp_all [onto, cutLiteral_append, cutLongLiteral_append, cutBasic_append,
      cutLongBasic_append, cutWhile_append]

end Scratchpad.Toml
