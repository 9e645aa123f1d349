import Scratchpad.Json.Decoder
import Scratchpad.Json.Printer
import Scratchpad.Log.Entry

/-!
# Stamped entries

An entry that leaves the program is stamped with an identifier and the time at which it was made. It is
exchanged as an object with five fields. The line is left out when it is not known.

## Main definitions

* `Stamped`: an entry with its stamp.
* `Stamped.json`: how a stamped entry is written.
* `Stamped.decoder`: how it is read.
-/

namespace Scratchpad.Log

open Json

/-- An entry with an identifier and the milliseconds since the epoch. -/
structure Stamped where
  id : String
  timestamp : UInt64
  entry : Entry
deriving DecidableEq, Inhabited, Repr

namespace Stamped

/-- How a stamped entry is written. -/
def json (s : Stamped) : String :=
  let line := s.entry.line.toList.map fun n => ("line", toString n.toNat)
  writtenObject <|
    [("id", written s.id), ("content", written s.entry.content)] ++ line ++
      [("method", written s.entry.method.name), ("timestamp", toString s.timestamp.toNat)]

/-- The fields of a stamped entry that have been read. -/
structure Draft where
  id : Option String
  content : Option String
  line : Option (Option UInt32)
  method : Option Method
  timestamp : Option UInt64

/-- Decodes words of 32 bits. -/
def word32 : Decoder UInt32 := (Decoder.whole 0 (UInt32.size - 1) "u32").map fun n => UInt32.ofNat n.toNat

/-- Decodes words of 64 bits. -/
def word64 : Decoder UInt64 := (Decoder.whole 0 (UInt64.size - 1) "u64").map fun n => UInt64.ofNat n.toNat

/-- Decodes methods. -/
def methodDecoder : Decoder Method := .oneOf (Method.all.map fun m => (m.name, m))

/-- The stamped entry of a draft. -/
def ofDraft (d : Draft) : Except Flaw Stamped := do
  let present {α : Type} (name : String) (field : Option α) : Except Flaw α :=
    match field with
    | some a => .ok a
    | none => .error (.missingField name)
  let id ← present "id" d.id
  let content ← present "content" d.content
  let method ← present "method" d.method
  let timestamp ← present "timestamp" d.timestamp
  return ⟨id, timestamp, method, d.line.join, content⟩

/-- Stamped entries as records. -/
def shape : Shape Draft Stamped where
  name := "struct LogEntry"
  fields :=
    [⟨"id", (·.id.isSome), Decoder.text.map fun s d => { d with id := some s }, false⟩,
      ⟨"content", (·.content.isSome), Decoder.text.map fun s d => { d with content := some s }, false⟩,
      ⟨"line", (·.line.isSome), word32.optional.map fun n d => { d with line := some n }, true⟩,
      ⟨"method", (·.method.isSome), methodDecoder.map fun m d => { d with method := some m }, false⟩,
      ⟨"timestamp", (·.timestamp.isSome), word64.map fun t d => { d with timestamp := some t }, false⟩]
  blank := ⟨none, none, none, none, none⟩
  complete := ofDraft

/-- Decodes stamped entries. -/
def decoder : Decoder Stamped := shape.decoder

/-- The stamped entry that a text holds. -/
def ofJson (s : String) : Except Misfit Stamped :=
  Reader.document (decoder.fromText Reader.greatestDepth) s

end Stamped

end Scratchpad.Log
