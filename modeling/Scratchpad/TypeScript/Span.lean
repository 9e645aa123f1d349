import Scratchpad.Text.Offset
import Scratchpad.TypeScript.Complaint

/-!
# Spans

A reader of files that lays one behind another says where a flaw is by bytes that it counts through all of
them. The offset of a flaw within its own file is what is left when the start of the file is taken away. One
that lies before the file counts as its beginning, and one that lies behind it as its end. An encoding mark at
the beginning of the file has not been counted.

To show a flaw its line is looked for by going through the characters that begin before the offset, and the
text is cut at offsets. There is no complaint if one of them lies within a character.

## Main definitions

* `lineFrom`: the number of the line of an offset, and where that line begins.
* `Complaint.ofSpan?`: the complaint about a diagnostic whose span begins at a byte.
-/

namespace Scratchpad.TypeScript

open Scratchpad.Text

/-- Goes through characters, of which the first one begins at a byte, up to an offset. A line is given by its
number and the byte at which it begins. -/
def lineFrom (offset : Nat) : Nat → List Char → Nat × Nat → Nat × Nat
  | _, [], line => line
  | here, c :: cs, (number, start) =>
    if offset ≤ here then (number, start)
    else lineFrom offset (here + c.utf8Size) cs (if c = '\n' then (number + 1, here + 1) else (number, start))

/-- The complaint about a diagnostic whose span begins at a byte, given the byte at which its file starts. -/
def Complaint.ofSpan? (source : String) (fileStart lo : Nat) (diagnostic : String) : Option Complaint := do
  let cs := withoutEncodingMark source.toList
  let offset := min (lo - fileStart) (byteLength cs)
  let (number, start) := lineFrom offset 0 cs (1, 0)
  let before ← between? start offset cs
  let (_, rest) ← cutAt? start cs
  let caret := String.ofList (List.replicate before.length ' ') ++ "^"
  return {
    line := number
    message := "Parse error at line " ++ toString number ++ ":\n  " ++ String.ofList (firstLine rest) ++
      "\n  " ++ caret ++ "\n" ++ description diagnostic }

end Scratchpad.TypeScript
