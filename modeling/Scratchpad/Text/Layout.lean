/-!
# Layout

A text is laid out from pieces: words, line ends, and changes of the indentation. A line is indented when
its first word is written, and a line end at the beginning of a line does nothing, so that two parts that
both end a line do not leave an empty one.

## Main definitions

* `Piece`: what a layout is made of.
* `Piece.render`: the text of a layout.
-/

namespace Scratchpad.Text

/-- What a layout is made of. -/
inductive Piece where
  /-- Text that is written as it stands. -/
  | text (s : String)
  /-- The end of the line, unless nothing has been written on it. -/
  | line
  /-- One more step of indentation from here on. -/
  | indent
  /-- One step less. -/
  | dedent
deriving DecidableEq, Inhabited, Repr

namespace Piece

/-- Where a layout stands. -/
structure Cursor where
  written : String := ""
  depth : Nat := 0
  atLineStart : Bool := true

/-- One step of indentation. -/
def indentation : String := "    "

/-- Writes one piece. -/
def write (c : Cursor) : Piece → Cursor
  | text s =>
    if s.isEmpty then c
    else
      let start := if c.atLineStart then String.join (List.replicate c.depth indentation) else ""
      { c with written := c.written ++ start ++ s, atLineStart := false }
  | line => if c.atLineStart then c else { c with written := c.written.push '\n', atLineStart := true }
  | indent => { c with depth := c.depth + 1 }
  | dedent => { c with depth := c.depth - 1 }

/-- The text of a layout. -/
def render (pieces : List Piece) : String :=
  (pieces.foldl write {}).written

/-- Parts with something in between. -/
def joined (between : List Piece) : List (List Piece) → List Piece
  | [] => []
  | [p] => p
  | p :: ps => p ++ between ++ joined between ps

/-- Parts in brackets, each on an indented line of its own. -/
def lines (opening closing : String) (between : List Piece) (parts : List (List Piece)) : List Piece :=
  [text opening, line, indent] ++ joined (between ++ [line]) parts ++ [dedent, line, text closing]

end Piece

end Scratchpad.Text
