import Scratchpad.Text.CodePoints

/-!
# Quoted text

Text between double quotes in which everything that a reader could not see is written as an escape:
quotes and backslashes behind a backslash, the common controls by letter, and any other character
that leaves no mark on the page by its hexadecimal number in braces.

## Main definitions

* `quoted`: a text with its quotes and escapes.
* `quotedLetter`: a single character with its quotes and escapes.
-/

namespace Scratchpad.Text

/-- Lower-case hexadecimal digits of a number, most significant first. -/
def hexDigits (n : Nat) : String :=
  String.ofList (Nat.toDigits 16 n)

/-- One character inside quotes. -/
def quotedChar (c : Char) : String :=
  if c == '"' then "\\\""
  else if c == '\\' then "\\\\"
  else if c == '\n' then "\\n"
  else if c == '\r' then "\\r"
  else if c == '\t' then "\\t"
  else if c == '\x00' then "\\0"
  else if isInvisible c then "\\u\x7b" ++ hexDigits c.toNat ++ "\x7d"
  else c.toString

/-- A text between quotes, with escapes. -/
def quoted (s : String) : String :=
  "\"" ++ String.join (s.toList.map quotedChar) ++ "\""

/-- A character between single quotes, with an escape. There a single quote needs one, and a double quote does
not. -/
def quotedLetter (c : Char) : String :=
  "'" ++ (if c == '\'' then "\\'" else if c == '"' then "\"" else quotedChar c) ++ "'"

end Scratchpad.Text
