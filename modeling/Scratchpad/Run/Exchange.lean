import Scratchpad.Log.Stamped
import Scratchpad.Run.Event

/-!
# Exchange of events

Events and outcomes leave the program as tagged objects, one a line. Runs are named by strings there, and
entries are stamped.

## Main definitions

* `Outcome.json`, `Outcome.ofJson`: writing and reading outcomes.
* `Message`: an event as it is exchanged.
* `Message.json`, `Message.ofJson`: writing and reading them.
-/

namespace Scratchpad.Run

open Json Log

/-! ## Outcomes -/

/-- A required field of a draft. -/
def required {α : Type} (name : String) (field : Option α) : Except Flaw α :=
  match field with
  | some a => .ok a
  | none => .error (.missingField name)

namespace Outcome

/-- How an outcome is written. -/
def json : Outcome → String
  | completed code =>
    writtenObject [("status", written "completed"), ("exit_code", toString code.toInt)]
  | failed message => writtenObject [("status", written "failed"), ("message", written message)]
  | killed => writtenObject [("status", written "killed")]

/-- Decodes signed words of 32 bits. -/
def signedWord : Decoder Int32 := (Decoder.whole Int32.minValue.toInt Int32.maxValue.toInt "i32").map Int32.ofInt

/-- What is left of an outcome without anything in it: any object, or the empty list. -/
def bare (v : Value) : Except Flaw Unit :=
  match v with
  | .list [] | .object _ => .ok ()
  | .list items => .error (.wrongLength items.length "0 elements in sequence")
  | v => Decoder.unexpectedValue v "unit variant RunOutcome::Killed"

/-- Outcomes as tagged records. -/
def tagged : Tagged Outcome where
  name := "internally tagged enum RunOutcome"
  tag := "status"
  kinds :=
    [("completed", Shape.fromValue (δ := Option Int32)
        { name := "struct variant RunOutcome::Completed"
          fields := [⟨"exit_code", Option.isSome, signedWord.map fun n _ => some n, false⟩]
          blank := none
          complete := fun code => completed <$> required "exit_code" code }),
      ("failed", Shape.fromValue (δ := Option String)
        { name := "struct variant RunOutcome::Failed"
          fields := [⟨"message", Option.isSome, Decoder.text.map fun s _ => some s, false⟩]
          blank := none
          complete := fun message => failed <$> required "message" message }),
      ("killed", fun v => (fun _ => killed) <$> bare v)]

/-- Decodes outcomes. -/
def decoder : Decoder Outcome := tagged.decoder

/-- The outcome that a text holds. -/
def ofJson (s : String) : Except Misfit Outcome :=
  Reader.document (decoder.fromText Reader.greatestDepth) s

end Outcome

/-! ## Events -/

/-- An event as it is exchanged. -/
abbrev Message := Event String Stamped

namespace Message

/-- How an event is written. -/
def json : Message → String
  | .started run source =>
    writtenObject [("type", written "started"), ("run_id", written run), ("source_id", written source)]
  | .output run entries =>
    writtenObject [("type", written "output"), ("run_id", written run),
      ("entries", writtenList (entries.map Stamped.json))]
  | .finished run outcome =>
    writtenObject [("type", written "finished"), ("run_id", written run), ("outcome", outcome.json)]

/-- The fields of an event that have been read: the run, and what is told of it. -/
abbrev Draft (α : Type) := Option String × Option α

/-- An event as a record with a run and one more field. -/
def shape {α : Type} (name field : String) (decoder : Decoder α) (event : String → α → Message) :
    Shape (Draft α) Message where
  name := "struct variant RunEvent::" ++ name
  fields :=
    [⟨"run_id", (·.1.isSome), Decoder.text.map fun s d => (some s, d.2), false⟩,
      ⟨field, (·.2.isSome), decoder.map fun a d => (d.1, some a), false⟩]
  blank := (none, none)
  complete := fun d => do
    let run ← required "run_id" d.1
    return event run (← required field d.2)

/-- Decodes the entries of an event, which is read as a value first. -/
def entriesDecoder : Decoder (List Stamped) :=
  ⟨fun depth => do Decoder.lift (Stamped.decoder.listFromValue (← Reader.value depth)),
    Stamped.decoder.listFromValue⟩

/-- Events as tagged records. -/
def tagged : Tagged Message where
  name := "internally tagged enum RunEvent"
  tag := "type"
  kinds :=
    [("started", (shape "Started" "source_id" Decoder.text .started).fromValue),
      ("output", (shape "Output" "entries" entriesDecoder .output).fromValue),
      ("finished", (shape "Finished" "outcome" Outcome.decoder .finished).fromValue)]

/-- The event that a text holds. -/
def ofJson (s : String) : Except Misfit Message :=
  Reader.document (tagged.fromText Reader.greatestDepth) s

end Message

end Scratchpad.Run
