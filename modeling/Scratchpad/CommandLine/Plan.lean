import Scratchpad.CommandLine.Reading
import Scratchpad.Config.Basic

/-!
# Plans of runs

What a command line and a configuration say together about the runs of a file. The command line counts
more: it names the program if it names one, it adds variables to the environment, and lines are told only
if neither objects.

## Main definitions

* `Plan`: what is known about the runs.
* `Arguments.plan`: the plan of a command line and a configuration.
-/

namespace Scratchpad.CommandLine

/-- What is known about the runs of a file. -/
structure Plan where
  settings : Run.Settings
  /-- Whether output tells the lines that it comes from. -/
  matchesLines : Bool
  environment : Environment
deriving DecidableEq, Inhabited, Repr

/-- The plan of a command line and a configuration. -/
def Arguments.plan (a : Arguments) (c : Config) : Plan where
  settings := { c.settings with program := a.program.getD c.settings.program }
  matchesLines := c.running.matchesLines && a.matchesLines
  environment := c.environment.extend a.environment

end Scratchpad.CommandLine
