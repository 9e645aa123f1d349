import Scratchpad.Config.Basic
import Scratchpad.Toml.Document

/-!
# Reading configurations

A configuration is read from the table of a document. A part that is missing keeps its default, and
entries that mean nothing are passed over, as long as they hold no number that is too large. The settings
of a part may also be given as a list, in order. Entries are read in the order of their keys.

## Main definitions

* `Config.ofTable`: the configuration of a table.
* `Config.ofText`: the configuration of a document.
* `Config.Failure`: why a text is no configuration, and what the user is told.
-/

namespace Scratchpad.Config

open Toml (Entries Misfit Span Value)

/-! ## Plain values -/

/-- A value is not of the type that was expected. -/
def unexpected {α : Type} (v : Span × Value) (expected : String) : Except Misfit α :=
  match v with
  | (span, .tooLarge isReal) => .error ⟨.numberTooLarge isReal, span⟩
  | (span, v) => .error ⟨.wrongType v.description expected, span⟩

/-- A truth value. -/
def boolean (v : Span × Value) : Except Misfit Bool :=
  match v.2 with
  | .boolean b => .ok b
  | _ => unexpected v "a boolean"

/-- A word of 64 bits. Of smaller numbers those that fit such a word with a sign have a wrong value, and all
others a wrong type. -/
def word (expected : String) (v : Span × Value) : Except Misfit UInt64 :=
  match v.2 with
  | .whole n =>
    if 0 ≤ n ∧ n < UInt64.size then .ok (UInt64.ofNat n.toNat)
    else if Int64.minValue.toInt ≤ n ∧ n < 0 then .error ⟨.wrongValue v.2.description expected, v.1⟩
    else unexpected v expected
  | _ => unexpected v expected

/-- A text. -/
def text (v : Span × Value) : Except Misfit String :=
  match v.2 with
  | .text s => .ok s
  | _ => unexpected v "a string"

mutual

/-- A value that means nothing, which must not hold a number that is too large. -/
def passedOver : Span → Value → Except Misfit Unit
  | span, .tooLarge isReal => .error ⟨.numberTooLarge isReal, span⟩
  | _, .list _ items => itemsPassedOver items
  | _, .table _ entries => entriesPassedOver entries
  | _, _ => .ok ()

def itemsPassedOver : List (Span × Value) → Except Misfit Unit
  | [] => .ok ()
  | (span, v) :: rest => do passedOver span v; itemsPassedOver rest

def entriesPassedOver : List (String × Span × Value) → Except Misfit Unit
  | [] => .ok ()
  | (_, span, v) :: rest => do passedOver span v; entriesPassedOver rest

end

/-! ## Parts -/

/-- A field of a part: its key, and how its value changes the part. -/
structure Field (α : Type) where
  key : String
  update : α → Span × Value → Except Misfit α

/-- Reads the entries of a table into the fields of a part. -/
def ofEntries {α : Type} (fields : List (Field α)) (start : α) (entries : Entries) : Except Misfit α :=
  entries.foldlM (fun a (key, v) =>
    match fields.find? (·.key = key) with
    | some f => f.update a v
    | none => do passedOver v.1 v.2; return a) start

/-- Reads the items of a list into the fields of a part, as far as there are both. -/
def ofItems {α : Type} (fields : List (Field α)) (start : α) (items : List (Span × Value)) :
    Except Misfit α :=
  (fields.zip items).foldlM (fun a (f, v) => f.update a v) start

/-- Reads a part. A date or a time counts as a table without a field that means anything. -/
def ofValue {α : Type} (fields : List (Field α)) (start : α) (expected : String) (v : Span × Value) :
    Except Misfit α :=
  match v.2 with
  | .table _ entries => ofEntries fields start entries
  | .list _ items => ofItems fields start items
  | .moment _ => .ok start
  | _ => unexpected v expected

/-- The fields that say how a source is run. -/
def Running.fields : List (Field Running) :=
  [⟨"match_lines", fun r v => do return { r with matchesLines := ← boolean v }⟩,
    ⟨"flush_interval_ms", fun r v => do return { r with flushInterval := ← word "u64" v }⟩,
    ⟨"high_water_mark", fun r v => do return { r with mark := ← word "usize" v }⟩,
    ⟨"node", fun r v => do return { r with program := ← text v }⟩,
    ⟨"entry_file", fun r v => do return { r with entryFile := ← text v }⟩]

/-- The fields that say when a source is run again. -/
def Rerunning.fields : List (Field Rerunning) :=
  [⟨"enabled", fun r v => do return { r with isEnabled := ← boolean v }⟩,
    ⟨"delay_ms", fun r v => do return { r with delay := ← word "u64" v }⟩]

/-- The name that a date or a time has when it is read as a table. -/
def momentKey : String := "$__toml_private_datetime"

/-- An environment. -/
def environmentOf (v : Span × Value) : Except Misfit Environment :=
  match v.2 with
  | .table _ entries =>
    entries.foldlM (fun e (name, v) => do return e.insert name (← text v)) .empty
  | .moment m => .ok (Environment.empty.insert momentKey m.text)
  | _ => unexpected v "a map"

/-- The parts of a configuration. -/
def fields : List (Field Config) :=
  [⟨"run", fun c v => do
      return { c with running := ← ofValue Running.fields {} "struct RunConfig" v }⟩,
    ⟨"auto_run", fun c v => do
      return { c with rerunning := ← ofValue Rerunning.fields {} "struct AutoRunConfig" v }⟩,
    ⟨"env", fun c v => do return { c with environment := ← environmentOf v }⟩]

/-- The configuration of a table. -/
def ofTable (entries : Entries) : Except Misfit Config := ofEntries fields {} entries

/-! ## Documents -/

/-- Why a text is no configuration: a report of what is wrong with it. -/
structure Failure where
  report : String
deriving DecidableEq, Inhabited, Repr

/-- What the user is told. -/
def Failure.message (f : Failure) : String := "invalid config: " ++ f.report

/-- The configuration of a document. -/
def ofText (s : String) : Except Failure Config :=
  match Toml.Document.ofText s.toList >>= ofTable with
  | .ok c => .ok c
  | .error m => .error ⟨m.report s.toList⟩

end Scratchpad.Config
