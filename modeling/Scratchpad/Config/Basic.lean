import Scratchpad.Debouncer
import Scratchpad.Environment
import Scratchpad.Run.Settings

/-!
# Configurations

What a user sets once for all runs: how a source is run, when it is run again, and what the environment of
its program holds. Everything has a default.

## Main definitions

* `Config`: a configuration.
* `Config.settings`: the settings of runs that follow from it.
* `Config.quietTime`: how long a changed source is left alone before it is run again.
-/

namespace Scratchpad

namespace Config

/-- How a source is run. -/
structure Running where
  /-- Whether output tells the lines that it comes from. -/
  matchesLines : Bool := true
  /-- After how many milliseconds output is delivered. -/
  flushInterval : UInt64 := 50
  /-- How many entries are delivered without waiting. -/
  mark : UInt64 := 256
  /-- The program that runs a composed source. -/
  program : String := "node"
  /-- The file that holds a composed source. -/
  entryFile : String := "index.mjs"
deriving DecidableEq, Inhabited, Repr

/-- When a source is run again. -/
structure Rerunning where
  /-- Whether a change has to be left alone for a while. -/
  isEnabled : Bool := true
  /-- For how many milliseconds. -/
  delay : UInt64 := 1000
deriving DecidableEq, Inhabited, Repr

end Config

/-- What a user sets once for all runs. -/
structure Config where
  running : Config.Running := {}
  rerunning : Config.Rerunning := {}
  environment : Environment := .empty
deriving DecidableEq, Inhabited, Repr

namespace Config

/-- The settings of runs. Output is delivered once in a millisecond at most. -/
def Running.settings (r : Running) : Run.Settings :=
  ⟨max 1 r.flushInterval.toNat, r.mark.toNat, r.program, r.entryFile⟩

/-- The settings of runs. -/
def settings (c : Config) : Run.Settings := c.running.settings

/-- How many milliseconds a changed source is left alone before it is run again. -/
def quietTime (c : Config) : Nat := if c.rerunning.isEnabled then c.rerunning.delay.toNat else 0

end Config

end Scratchpad
