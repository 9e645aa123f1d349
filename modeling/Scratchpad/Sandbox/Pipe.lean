import Scratchpad.Text.Utf8

/-!
# Pipes

The output of a program comes through a pipe in fragments that may end anywhere, even within a character.
It is passed on in lines: a line is a chunk with the line feed that ends it, and what stands behind the
last line feed is a chunk once the pipe is closed.

## Main definitions

* `Pipe.frame`: the lines that are complete, and what stands behind the last one.
* `Pipe.receive`, `Pipe.close`: a fragment arrives, the pipe is closed.
* `Pipe.chunks`: the chunks of fragments that arrive one after another.
-/

namespace Scratchpad.Sandbox.Pipe

/-- The byte that ends a line. -/
def lineFeed : UInt8 := 0x0A

/-- Puts a byte in front of lines and of what stands behind the last one. -/
def put (b : UInt8) : List (List UInt8) × List UInt8 → List (List UInt8) × List UInt8
  | (lines, rest) =>
    if b = lineFeed then ([b] :: lines, rest)
    else match lines with
      | [] => ([], b :: rest)
      | line :: lines => ((b :: line) :: lines, rest)

/-- The lines of bytes with the byte that ends each of them, and what stands behind the last one. -/
def frame (bs : List UInt8) : List (List UInt8) × List UInt8 := bs.foldr put ([], [])

@[simp] theorem frame_nil : frame [] = ([], []) := rfl

@[simp] theorem frame_cons (b : UInt8) (bs : List UInt8) : frame (b :: bs) = put b (frame bs) := rfl

/-- A fragment arrives behind what has arrived of a line. -/
def receive (pending fragment : List UInt8) : List String × List UInt8 :=
  let (lines, rest) := frame (pending ++ fragment)
  (lines.map Utf8.decode, rest)

/-- The pipe is closed, and what has arrived of a line is all of it. -/
def close (pending : List UInt8) : List String :=
  if pending.isEmpty then [] else [Utf8.decode pending]

/-- The chunks of fragments that arrive behind what has arrived of a line. -/
def chunksFrom (pending : List UInt8) : List (List UInt8) → List String
  | [] => close pending
  | fragment :: fragments =>
    let (chunks, pending) := receive pending fragment
    chunks ++ chunksFrom pending fragments

/-- The chunks of fragments that arrive one after another. -/
def chunks (fragments : List (List UInt8)) : List String := chunksFrom [] fragments

end Scratchpad.Sandbox.Pipe
