/-!
# Channels

A program writes to two channels: what it is for, and what it has to say about that.

## Main definitions

* `Channel`: the channels.
-/

namespace Scratchpad

/-- Where something is written. -/
inductive Channel where
  | standardOutput
  | standardError
deriving DecidableEq, Inhabited, Repr

end Scratchpad
