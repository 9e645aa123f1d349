/-!
# Patterns of a shell

An asterisk stands for any text, a question mark for any character, and brackets for one of several
characters. A character that is quoted stands for itself.

## Main definitions

* `Pattern`: characters, each of which may be quoted.
* `Pattern.fits`: whether a text fits a pattern.
-/

namespace Scratchpad.Machine.Shell

/-- The characters of a pattern, and whether each of them is quoted. -/
abbrev Pattern := List (Char × Bool)

namespace Pattern

/-- One of several characters. -/
structure Choice where
  isExcluded : Bool
  ranges : List (Char × Char)
deriving DecidableEq, Inhabited, Repr

/-- Whether a character is one of several. -/
def Choice.contains (choice : Choice) (c : Char) : Bool :=
  (choice.ranges.any fun (low, high) => low ≤ c && c ≤ high) != choice.isExcluded

/-- The ranges up to the bracket that ends them, and what follows. -/
def ranges (isFirst : Bool) : Pattern → Option (List (Char × Char) × Pattern)
  | [] => none
  | (']', false) :: p => if isFirst then (ranges false p).map fun (rs, p) => ((']', ']') :: rs, p) else some ([], p)
  | (low, _) :: ('-', false) :: (high, q) :: p =>
    if high == ']' && !q then
      (ranges false (('-', false) :: (high, q) :: p)).map fun (rs, p) => ((low, low) :: rs, p)
    else (ranges false p).map fun (rs, p) => ((low, high) :: rs, p)
  | (c, _) :: p => (ranges false p).map fun (rs, p) => ((c, c) :: rs, p)
termination_by p => p.length

/-- One of several characters in brackets, behind the one that opens, and what follows. -/
def choice? (p : Pattern) : Option (Choice × Pattern) :=
  match p with
  | ('!', false) :: p => (ranges true p).map fun (rs, p) => (⟨true, rs⟩, p)
  | p => (ranges true p).map fun (rs, p) => (⟨false, rs⟩, p)

/-- Whether a text fits a pattern that is not longer than the fuel. -/
def fitsWithin : Nat → Pattern → List Char → Bool
  | 0, p, cs => p.isEmpty && cs.isEmpty
  | fuel + 1, p, cs =>
    match p with
    | [] => cs.isEmpty
    | ('*', false) :: p => (List.range (cs.length + 1)).any fun n => fitsWithin fuel p (cs.drop n)
    | ('?', false) :: p =>
      match cs with
      | [] => false
      | _ :: cs => fitsWithin fuel p cs
    | (c, q) :: p =>
      match if c == '[' && !q then choice? p else none with
      | some (choice, p) =>
        match cs with
        | [] => false
        | d :: cs => choice.contains d && fitsWithin fuel p cs
      | none =>
        match cs with
        | [] => false
        | d :: cs => c == d && fitsWithin fuel p cs

/-- Whether a text fits a pattern. -/
def fits (p : Pattern) (text : String) : Bool := fitsWithin p.length p text.toList

/-- Whether a pattern stands for more than one text. -/
def isWild (p : Pattern) : Bool := p.any fun (c, q) => !q && ['*', '?', '['].contains c

/-- The characters of a pattern. -/
def text (p : Pattern) : String := String.ofList (p.map (·.1))

end Pattern

end Scratchpad.Machine.Shell
