import Scratchpad.Config.Basic
import Scratchpad.Toml.Printer

/-!
# Written configurations

A configuration is written in full, a table for each of its parts, with the environment in the order of
its names.

## Main definitions

* `Config.written`: the document of a configuration.
-/

namespace Scratchpad.Config

open Toml

/-- The settings that say how a source is run. -/
def Running.written (r : Running) : List (String × String) :=
  [("match_lines", writtenBoolean r.matchesLines), ("flush_interval_ms", toString r.flushInterval.toNat),
    ("high_water_mark", toString r.mark.toNat), ("node", writtenText r.program),
    ("entry_file", writtenText r.entryFile)]

/-- The settings that say when a source is run again. -/
def Rerunning.written (r : Rerunning) : List (String × String) :=
  [("enabled", writtenBoolean r.isEnabled), ("delay_ms", toString r.delay.toNat)]

/-- The document of a configuration. -/
def written (c : Config) : String :=
  writtenTables [("run", c.running.written), ("auto_run", c.rerunning.written),
    ("env", c.environment.bindings.map fun (name, value) => (name, writtenText value))]

end Scratchpad.Config
