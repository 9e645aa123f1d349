import Scratchpad.Toml.Quoted

/-!
# Writing documents

A text is written in the first of these ways that can hold it: between quotation marks without escapes,
between apostrophes, between three quotation marks without escapes, between three apostrophes, and at last
with escapes, between three quotation marks if it spans lines. Tabulators are no obstacle to any of them,
and are escaped wherever escapes are possible. A name is written without quotes if it can be, and never
between three marks.

## Main definitions

* `Content`, `Content.ofText`: what a text holds that some ways to write it cannot.
* `writtenText`, `writtenName`: texts and names as they are written.
-/

namespace Scratchpad.Toml

/-- What a text holds that some ways to write it cannot. -/
structure Content where
  /-- The most apostrophes that follow each other. -/
  apostrophes : Nat := 0
  /-- The most quotation marks that follow each other. -/
  quotationMarks : Nat := 0
  hasBackslash : Bool := false
  hasLineEnd : Bool := false
  hasControl : Bool := false
deriving DecidableEq, Inhabited, Repr

/-- The most marks of a kind that follow each other, given how many stand right before. -/
def longestRun (mark : Char) : (run : Nat) → List Char → Nat
  | run, [] => run
  | run, c :: cs => if c = mark then longestRun mark (run + 1) cs else max run (longestRun mark 0 cs)

/-- Whether a character is a control that only an escape can stand for. -/
def needsEscape (c : Char) : Bool := Reader.isControl c && c != '\n'

/-- What a text holds. -/
def Content.ofText (cs : List Char) : Content where
  apostrophes := longestRun '\'' 0 cs
  quotationMarks := longestRun '"' 0 cs
  hasBackslash := cs.contains '\\'
  hasLineEnd := cs.contains '\n'
  hasControl := cs.any needsEscape

namespace Content

/-- The way to write a text. -/
def quoting (k : Content) : Quoting :=
  if !k.hasControl && !k.hasBackslash && k.quotationMarks == 0 && !k.hasLineEnd then .basic
  else if !k.hasControl && k.apostrophes == 0 && !k.hasLineEnd then .literal
  else if !k.hasControl && !k.hasBackslash && k.quotationMarks ≤ 2 then .longBasic
  else if !k.hasControl && k.apostrophes ≤ 2 then .longLiteral
  else if k.hasLineEnd then .longBasic
  else .basic

/-- The way to write a name with quotes. A line end in it needs an escape. -/
def nameQuoting (k : Content) : Quoting :=
  if k.hasControl || k.hasLineEnd then .basic
  else if !k.hasBackslash && k.quotationMarks == 0 then .basic
  else if k.apostrophes == 0 then .literal
  else .basic

end Content

/-- The digits of a number in capitals, at least four of them. -/
def capitalHex (n : Nat) : List Char :=
  let ds := (Nat.toDigits 16 n).map Char.toUpper
  List.replicate (4 - ds.length) '0' ++ ds

/-- The escape of a character, if it has one. -/
def escaped? (isLong : Bool) (c : Char) : Option (List Char) :=
  if c = '\x08' then some ['\\', 'b']
  else if c = '\t' then some ['\\', 't']
  else if c = '\n' then if isLong then none else some ['\\', 'n']
  else if c = '\x0c' then some ['\\', 'f']
  else if c = '\r' then some ['\\', 'r']
  else if c = '\\' then some ['\\', '\\']
  else if Reader.isControl c then some ('\\' :: 'u' :: capitalHex c.toNat)
  else none

/-- A text with escapes, given how many quotation marks stand right before. Of quotation marks that follow
each other only two may stand without an escape in a string of many lines, and none in any other. -/
def withEscapes (isLong : Bool) : (run : Nat) → List Char → List Char
  | _, [] => []
  | run, c :: cs =>
    if c = '"' then
      if run < (if isLong then 2 else 0) then c :: withEscapes isLong (run + 1) cs
      else '\\' :: c :: withEscapes isLong 0 cs
    else
      match escaped? isLong c with
      | some escape => escape ++ withEscapes isLong 0 cs
      | none => c :: withEscapes isLong 0 cs

/-- A text written in a way. One of many lines begins on a line of its own. -/
def writtenAs (quoting : Quoting) (cs : List Char) : List Char :=
  let mark := quoting.mark.toList
  let start := if cs.contains '\n' then ['\n'] else []
  match quoting with
  | .literal => mark ++ cs ++ mark
  | .basic => mark ++ withEscapes false 0 cs ++ mark
  | .longLiteral => mark ++ start ++ cs ++ mark
  | .longBasic => mark ++ start ++ withEscapes true 0 cs ++ mark

/-- A text as it is written. -/
def writtenText (s : String) : String :=
  String.ofList (writtenAs (Content.ofText s.toList).quoting s.toList)

/-- A name in a key as it is written. -/
def writtenName (s : String) : String :=
  let cs := s.toList
  if !cs.isEmpty && cs.all isBareName then s
  else String.ofList (writtenAs (Content.ofText cs).nameQuoting cs)

/-- A truth value as it is written. -/
def writtenBoolean (b : Bool) : String := if b then "true" else "false"

/-- A setting of which the value is written. -/
def writtenSetting (name value : String) : String := writtenName name ++ " = " ++ value ++ "\n"

/-- A table with its heading and settings of which the values are written. -/
def writtenTable (name : String) (settings : List (String × String)) : String :=
  "[" ++ writtenName name ++ "]\n" ++ String.join (settings.map fun (n, v) => writtenSetting n v)

/-- A document of tables. -/
def writtenTables (tables : List (String × List (String × String))) : String :=
  "\n".intercalate (tables.map fun (name, settings) => writtenTable name settings)

end Scratchpad.Toml
