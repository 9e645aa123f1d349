import Scratchpad.Log.Entry

/-!
# Reading a stream line by line

A stream arrives in chunks that may end anywhere. A reader keeps what stands behind the last line feed
and reads an entry from every line that a chunk completes. At the end of the stream what is left is read
as a line of its own.

## Main definitions

* `completeLines`: the lines of a text that are ended, and what stands behind them.
* `LineReader.feed`, `LineReader.flush`: a chunk arrives, the stream ends.
-/

namespace Scratchpad.Log

/-- The lines of a text that a line feed ends, and what stands behind the last line feed. -/
def completeLines : List Char → List (List Char) × List Char
  | [] => ([], [])
  | c :: cs =>
    match completeLines cs with
    | (lines, rest) =>
      if c = '\n' then ([] :: lines, rest)
      else match lines with
        | [] => ([], c :: rest)
        | line :: lines => ((c :: line) :: lines, rest)

/-- A reader of a stream of lines. -/
structure LineReader where
  /-- Whether markers are looked for. -/
  matchLines : Bool
  /-- What has arrived of a line that is not ended yet. -/
  pending : List Char
deriving DecidableEq, Inhabited, Repr

namespace LineReader

/-- A reader at the beginning of a stream. -/
def start (matchLines : Bool) : LineReader := ⟨matchLines, []⟩

/-- The entries of the lines that a chunk completes. -/
def feed (r : LineReader) (chunk : String) : List Entry × LineReader :=
  let (lines, rest) := completeLines (r.pending ++ chunk.toList)
  (lines.map (Entry.ofLine r.matchLines), { r with pending := rest })

/-- The entry of a last line that is not ended. -/
def flush (r : LineReader) : Option Entry × LineReader :=
  if r.pending.isEmpty then (none, r)
  else (some (Entry.ofLine r.matchLines r.pending), { r with pending := [] })

/-- What a reader returns for chunks that arrive one after another. -/
def feedAll (r : LineReader) (chunks : List String) : List Entry × LineReader :=
  chunks.foldl (fun (entries, r) chunk =>
    let (more, r) := r.feed chunk
    (entries ++ more, r)) ([], r)

end LineReader

end Scratchpad.Log
