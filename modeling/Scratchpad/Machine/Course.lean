import Scratchpad.Channel
import Scratchpad.Sandbox.Pipe

/-!
# Courses of programs

What a program does, as far as others can see: what it prints at which time, and when and how it ends.
Times are in milliseconds since the program was started.

## Main definitions

* `Print`, `Ending`, `Course`: what a program does.
* `Course.chunks`: the chunks that come through the pipes of a program, and when.
* `Course.attend`: the chunks that someone reads who may lose patience, and the code of the end.
-/

namespace Scratchpad.Machine

/-- Something that is printed. -/
structure Print where
  time : Nat
  channel : Channel
  bytes : List UInt8
deriving DecidableEq, Inhabited, Repr

/-- How a program ends. -/
inductive Ending where
  | exited (code : UInt8)
  /-- It is ended by a signal. -/
  | signalled
  /-- It goes on for longer than anybody waits. -/
  | endless
deriving DecidableEq, Inhabited, Repr

/-- The code of a program that is ended by a signal. -/
def signalCode : Int32 := -1

/-- The code that is told of the end. -/
def Ending.code : Ending → Int32
  | .exited code => Int32.ofNat code.toNat
  | .signalled | .endless => signalCode

/-- What a program does. -/
structure Course where
  prints : List Print
  ending : Ending
  /-- When it ends. -/
  duration : Nat
deriving DecidableEq, Inhabited, Repr

namespace Course

/-- What has arrived of a line on each of two pipes. -/
structure Pending where
  output : List UInt8
  error : List UInt8
deriving DecidableEq, Inhabited, Repr

/-- Something is printed. -/
def receive (p : Pending) (print : Print) : List (Nat × String) × Pending :=
  match print.channel with
  | .standardOutput =>
    let (chunks, rest) := Sandbox.Pipe.receive p.output print.bytes
    (chunks.map fun c => (print.time, c), { p with output := rest })
  | .standardError =>
    let (chunks, rest) := Sandbox.Pipe.receive p.error print.bytes
    (chunks.map fun c => (print.time, c), { p with error := rest })

/-- What is printed, in the order of time. -/
def ordered (c : Course) : List Print := c.prints.mergeSort fun a b => a.time ≤ b.time

/-- When both pipes are closed: nobody writes to them any more. -/
def closing (c : Course) : Nat := c.prints.foldl (fun t p => max t p.time) c.duration

/-- The chunks of prints in their order, given what has arrived of a line, and what is left of that. -/
def chunksFrom (p : Pending) : List Print → List (Nat × String) × Pending
  | [] => ([], p)
  | print :: prints =>
    let (chunks, p) := receive p print
    let (more, p) := chunksFrom p prints
    (chunks ++ more, p)

/-- The chunks that come through the pipes, and when. -/
def chunks (c : Course) : List (Nat × String) :=
  let (chunks, rest) := chunksFrom ⟨[], []⟩ c.ordered
  match c.ending with
  | .endless => chunks
  | _ =>
    chunks ++ (Sandbox.Pipe.close rest.output ++ Sandbox.Pipe.close rest.error).map fun s => (c.closing, s)

/-- Whether the program has ended by itself once so many chunks have come. -/
def isOverAfter (c : Course) (count : Nat) : Bool :=
  match c.ending with
  | .endless => false
  | _ => c.duration ≤ ((c.chunks[count - 1]?.filter fun _ => count != 0).map (·.1)).getD 0

/-- The chunks that someone reads and the code of the end. Whoever reads may kill the program after so
many chunks, which has no effect if it has ended by itself. -/
def attend (c : Course) (patience : Option Nat) : List String × Int32 :=
  let chunks := c.chunks.map (·.2)
  match patience with
  | none => (chunks, c.ending.code)
  | some count =>
    if count ≤ chunks.length then
      (chunks.take count, if c.isOverAfter count then c.ending.code else signalCode)
    else (chunks, c.ending.code)

end Course

end Scratchpad.Machine
