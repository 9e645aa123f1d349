/-!
# Settings of runs

What all runs have in common: how often output is delivered at the latest, how much of it is delivered
at once, and which program runs which file.

## Main definitions

* `Settings`: the settings.
-/

namespace Scratchpad.Run

/-- What all runs have in common. -/
structure Settings where
  /-- After how many milliseconds output is delivered. -/
  flushInterval : Nat
  /-- How many entries are delivered without waiting. -/
  mark : Nat
  /-- The program that runs a composed source. -/
  program : String
  /-- The file that holds a composed source. -/
  entryFile : String
deriving DecidableEq, Inhabited, Repr

end Scratchpad.Run
