/-!
# Writing values

Values are written without blanks, and the fields of an object in the order in which they are given. In a
string the quote, the backslash and the controls are escaped, and nothing else.

## Main definitions

* `written`: a string.
* `writtenList`, `writtenObject`: lists and objects of things that are written already.
-/

namespace Scratchpad.Json

/-- A hexadecimal digit. -/
def hexDigit (n : Nat) : Char := if n < 10 then Char.ofNat (48 + n) else Char.ofNat (87 + n)

/-- One character within a string. -/
def writtenChar (c : Char) : List Char :=
  if c = '"' then ['\\', '"']
  else if c = '\\' then ['\\', '\\']
  else if c = '\x08' then ['\\', 'b']
  else if c = '\t' then ['\\', 't']
  else if c = '\n' then ['\\', 'n']
  else if c = '\x0c' then ['\\', 'f']
  else if c = '\r' then ['\\', 'r']
  else if c.toNat < 0x20 then ['\\', 'u', '0', '0', hexDigit (c.toNat / 16), hexDigit (c.toNat % 16)]
  else [c]

/-- A string with its quotes. -/
def written (s : String) : String := "\"" ++ String.ofList (s.toList.flatMap writtenChar) ++ "\""

/-- A list of things that are written. -/
def writtenList (items : List String) : String := "[" ++ ",".intercalate items ++ "]"

/-- An object whose values are written. -/
def writtenObject (fields : List (String × String)) : String :=
  "\x7b" ++ ",".intercalate (fields.map fun (name, value) => written name ++ ":" ++ value) ++ "\x7d"

end Scratchpad.Json
