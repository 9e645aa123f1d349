import Scratchpad.Channel
import Scratchpad.Run.Exchange

/-!
# Showing a run

How a run is shown in a terminal: one line an entry, on one of two channels, and a last line that tells
how the run ended. Or one line an event, for other programs to read.

## Main definitions

* `Entry.shown`, `Method.channel`: the line of an entry, and where it goes.
* `Outcome.shown`, `Outcome.exitCode`: the last line, and the code with which the tool itself ends.
* `Event.lines`, `Message.lines`: everything that is written for an event.
-/

namespace Scratchpad

namespace Log

/-- The line of an entry. -/
def Entry.shown (e : Entry) : String :=
  match e.line with
  | some n => "[" ++ e.method.name ++ "] L" ++ toString n.toNat ++ " | " ++ e.content
  | none => "[" ++ e.method.name ++ "] " ++ e.content

/-- Where the entries of a method go. -/
def Method.channel : Method → Channel
  | .error | .warn => .standardError
  | .log | .info => .standardOutput

end Log

namespace Run

open Log

/-- The last line of a run. -/
def Outcome.shown : Outcome → String
  | .completed code => if code = 0 then "-- done" else "-- exited with code " ++ toString code.toInt
  | .failed message => "-- failed: " ++ message
  | .killed => "-- stopped"

/-- The code with which the tool ends after a single run. -/
def Outcome.exitCode : Outcome → Int32
  | .completed code => code
  | .failed _ => 1
  | .killed => 130

/-- The lines that a user sees of an event. -/
def Event.lines {Name Item : Type} (entryOf : Item → Entry) : Event Name Item → List (Channel × String)
  | .started .. => []
  | .output _ entries => entries.map fun i => ((entryOf i).method.channel, (entryOf i).shown)
  | .finished _ outcome => [(.standardError, outcome.shown)]

/-- The lines that are written for an event. -/
def Message.lines (asJson : Bool) (m : Message) : List (Channel × String) :=
  if asJson then [(.standardOutput, m.json)] else Event.lines Stamped.entry m

end Run

end Scratchpad
