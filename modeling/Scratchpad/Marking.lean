import Scratchpad.Log.Method
import Scratchpad.Text.Lines
import Scratchpad.Text.Offset
import Scratchpad.TypeScript.Document

/-!
# Marking console calls

Every call of a console method with an argument receives a marker as a new first argument, which names
the line on which the call begins. Markers are spliced into the text of the source, so whatever else it
holds stays where it is. A source that cannot be read without a flaw is left alone.

## Main definitions

* `TypeScript.Node.isConsoleMethod`: the methods whose calls receive a marker.
* `Insertion.ofItems`: what is inserted into a source, and where.
* `Insertion.splice`: a text with insertions.
* `Marking.ofSource`: a source with its markers.
-/

namespace Scratchpad

open TypeScript (Node Document)
open Text

namespace TypeScript.Node

/-- A node together with everything below it. -/
def subterms (n : Node) : List Node :=
  n :: n.children.attach.flatMap fun ⟨c, _⟩ => subterms c
termination_by n
decreasing_by exact sizeOf_lt_of_mem_children ‹_›

/-- Console methods whose calls receive markers. -/
def consoleMethods : List String := ["log", "info", "warn", "error", "debug"]

/-- Whether a node is a plain access to one of the console methods. -/
def isConsoleMethod : Node → Bool
  | member _ .plain (identifier _ "console" _) (word _ name) => consoleMethods.contains name
  | _ => false

end TypeScript.Node

/-- A marker that is to be inserted into a source. -/
structure Insertion where
  /-- How many bytes stand before it. -/
  offset : Nat
  /-- The line that it names. -/
  line : Nat
deriving DecidableEq, Repr

namespace Insertion

/-- What is inserted. -/
def text (i : Insertion) : List Char :=
  ("\"" ++ Log.lineMarker i.line ++ "\", ").toList

/-- The insertion that a node of a text asks for, in a source that holds the text behind some bytes. -/
def ofNode? (cs : List Char) (skipped : Nat) (n : Node) : Option Insertion :=
  match n with
  | .call pos .plain callee _ (first :: _) =>
    if callee.isConsoleMethod then
      some ⟨byteLength (cs.take first.pos) + skipped, sourceLineAt cs pos⟩
    else none
  | _ => none

/-- The insertions that the trees of a text ask for. -/
def ofItems (cs : List Char) (skipped : Nat) (items : List Node) : List Insertion :=
  (items.flatMap Node.subterms).filterMap (ofNode? cs skipped)

/-- A text with one insertion. One that lies within a character or behind the text is left out. -/
def applyTo (i : Insertion) (cs : List Char) : List Char :=
  match cutAt? i.offset cs with
  | some (before, after) => before ++ i.text ++ after
  | none => cs

/-- A text with insertions. The one farthest behind goes first, so that the others stay in place. -/
def splice (is : List Insertion) (cs : List Char) : List Char :=
  (is.mergeSort fun a b => b.offset ≤ a.offset).foldl (fun cs i => i.applyTo cs) cs

end Insertion

/-- A source with markers. -/
structure Marking where
  code : String
  /-- The lines that are named, in ascending order. -/
  lines : List Nat
deriving DecidableEq, Repr

namespace Marking

/-- A source without markers. -/
def unmarked (source : String) : Marking := ⟨source, []⟩

/-- A source with markers where they are to be inserted. -/
def ofInsertions (source : String) (is : List Insertion) : Marking :=
  { code := String.ofList (Insertion.splice is source.toList)
    lines := (is.map (·.line)).mergeSort }

/-- A source with a marker in every console call. -/
def ofSource (source : String) : Marking :=
  let cs := withoutEncodingMark source.toList
  let skipped := encodingMarkLength source.toList
  if source.isEmpty then unmarked source
  else match Document.parse false (String.ofList cs) with
  | .error _ => unmarked source
  | .ok document => ofInsertions source (Insertion.ofItems cs skipped document.items)

end Marking

end Scratchpad
