/-!
# Positions and lines

Where a position of a text lies: on which line, how far from the beginning of that line, and what the
line says. Positions count characters from zero, lines count from one. Two rules for the end of a line
are in use: a line feed alone, or a line feed, a carriage return, or both in that order.

## Main definitions

* `lineAt`, `columnAt`, `lineTextAt`: where a line feed ends a line.
* `sourceLineAt`: where a carriage return ends a line as well.
* `SparesLineEnd`: two texts that no line end of two characters lies across.
* `occursIn`: whether one text is part of another.
* `withoutEncodingMark`, `encodingMarkLength`: the mark that may stand before a text.

## Main statements

* `sourceLineAt_append_of_le`, `sourceLineAt_append_add`: the lines of one text before another.
-/

namespace Scratchpad.Text

/-- The line of a position, where a line feed ends a line. -/
def lineAt (cs : List Char) (pos : Nat) : Nat :=
  1 + (cs.take pos).count '\n'

/-- How many characters stand on the line of a position before it. -/
def columnAt (cs : List Char) (pos : Nat) : Nat :=
  ((cs.take pos).reverse.takeWhile (· != '\n')).length

/-- The first line of a text, without the line feed that ends it and a carriage return right before it. -/
def firstLine (cs : List Char) : List Char :=
  let line := cs.takeWhile (· != '\n')
  if line.length < cs.length && line.getLast? == some '\r' then line.dropLast else line

/-- What stands on the line of a position. -/
def lineTextAt (cs : List Char) (pos : Nat) : List Char :=
  firstLine (cs.drop ((cs.take pos).length - columnAt cs pos))

/-- Whether a line ends with a character, given what follows it. A carriage return before a line feed does
not end the line, since the line feed does. -/
def endsLine (c : Char) (rest : List Char) : Bool :=
  c == '\n' || (c == '\r' && rest.head? != some '\n')

/-- The line of a position, where line feeds and carriage returns end lines. -/
def sourceLineAt : List Char → Nat → Nat
  | c :: cs, pos + 1 => (if endsLine c cs then 1 else 0) + sourceLineAt cs pos
  | _, _ => 1

@[simp] theorem sourceLineAt_zero (cs : List Char) : sourceLineAt cs 0 = 1 := by
  cases cs <;> rfl

/-- The border between two texts does not come between a carriage return and a line feed. -/
def SparesLineEnd (xs ys : List Char) : Prop :=
  xs.getLast? = some '\r' → ys.head? ≠ some '\n'

theorem SparesLineEnd.of_cons {x : Char} {xs ys : List Char} (h : SparesLineEnd (x :: xs) ys) :
    SparesLineEnd xs ys := by
  cases xs with
  | nil => intro hlast; cases hlast
  | cons x' xs => exact h

/-- Whether a line ends within a text is not changed by what follows the text. -/
theorem SparesLineEnd.endsLine_append {x : Char} {xs ys : List Char}
    (h : SparesLineEnd (x :: xs) ys) : endsLine x (xs ++ ys) = endsLine x xs := by
  cases xs with
  | cons x' xs => rfl
  | nil =>
    by_cases hx : x = '\r'
    · subst hx
      have hends : (ys.head? != some '\n') = true := by simpa using h rfl
      simp only [endsLine, List.nil_append, hends]
      rfl
    · have hother : (x == '\r') = false := by simpa using hx
      simp only [endsLine, hother, Bool.false_and]

/-- A text keeps its lines when another one is put behind it. -/
theorem sourceLineAt_append_of_le {xs ys : List Char} (h : SparesLineEnd xs ys) {pos : Nat}
    (hpos : pos ≤ xs.length) : sourceLineAt (xs ++ ys) pos = sourceLineAt xs pos := by
  induction xs generalizing pos with
  | nil =>
    obtain rfl : pos = 0 := by simpa using hpos
    simp
  | cons x xs ih =>
    cases pos with
    | zero => simp
    | succ pos =>
      have hrest := ih h.of_cons (Nat.le_of_succ_le_succ hpos)
      simp only [List.cons_append, sourceLineAt, h.endsLine_append, hrest]

/-- The lines of a text go on where those of the text before it end. -/
theorem sourceLineAt_append_add {xs ys : List Char} (h : SparesLineEnd xs ys) (pos : Nat) :
    sourceLineAt (xs ++ ys) (xs.length + pos) + 1 =
      sourceLineAt xs xs.length + sourceLineAt ys pos := by
  induction xs with
  | nil => simp [Nat.add_comm]
  | cons x xs ih =>
    have hlength : (x :: xs).length + pos = xs.length + pos + 1 := by simp; omega
    have hrest := ih h.of_cons
    rw [hlength, List.cons_append, List.length_cons]
    simp only [sourceLineAt, h.endsLine_append]
    omega

/-- A text without line ends is on one line. -/
theorem sourceLineAt_eq_one {cs : List Char} (hfeed : '\n' ∉ cs) (hreturn : '\r' ∉ cs) (pos : Nat) :
    sourceLineAt cs pos = 1 := by
  induction cs generalizing pos with
  | nil => cases pos <;> rfl
  | cons c cs ih =>
    cases pos with
    | zero => rfl
    | succ pos =>
      simp only [List.mem_cons, not_or] at hfeed hreturn
      have hrest := ih hfeed.2 hreturn.2 pos
      simp [sourceLineAt, endsLine, Ne.symm hfeed.1, Ne.symm hreturn.1, hrest]

/-- Whether a text is part of another. -/
def occursIn (part : List Char) : List Char → Bool
  | [] => part.isEmpty
  | c :: cs => part.isPrefixOf (c :: cs) || occursIn part cs

/-- What follows the first occurrence of a text in another. -/
def after? (part : List Char) : List Char → Option (List Char)
  | [] => if part.isEmpty then some [] else none
  | c :: cs => if part.isPrefixOf (c :: cs) then some ((c :: cs).drop part.length) else after? part cs

/-- The mark that may stand at the very beginning of a text to tell how it is encoded. -/
def encodingMark : Char := '\ufeff'

/-- A text without the encoding mark at its beginning. -/
def withoutEncodingMark : List Char → List Char
  | c :: cs => if c == encodingMark then cs else c :: cs
  | [] => []

/-- How many bytes the encoding mark takes at the beginning of a text, if it stands there. -/
def encodingMarkLength (cs : List Char) : Nat :=
  if cs.head? = some encodingMark then encodingMark.utf8Size else 0

end Scratchpad.Text
