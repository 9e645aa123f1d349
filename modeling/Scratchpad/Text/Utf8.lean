/-!
# Text in bytes

Each character is written in one to four bytes. Bytes are read one by one: some bytes stand for a character
by themselves, some begin a character and tell which bytes may follow, and all others mean nothing. Where
the bytes of a character break off, what there was of it counts as one flaw, and reading goes on with the
byte that did not fit.

## Main definitions

* `Utf8.encode`: the bytes of a text.
* `Utf8.pieces`: the characters and the flaws of bytes.
* `Utf8.decode?`: the text of bytes without a flaw.
* `Utf8.decode`: the text of bytes, in which a sign stands for each flaw.
-/

namespace Scratchpad.Utf8

/-- The bytes of a text. -/
def encode (s : String) : List UInt8 := s.toUTF8.toList

/-- The beginning of a character. -/
structure Partial where
  /-- What the bytes so far stand for. -/
  code : Nat
  /-- Between which bounds the next byte has to be. -/
  bounds : UInt8 × UInt8
  /-- How many bytes follow after the next one. -/
  left : Nat
deriving DecidableEq, Inhabited, Repr

/-- What a byte is when no character has begun. -/
inductive Start where
  | char (c : Char)
  | part (p : Partial)
  | flaw
deriving DecidableEq, Inhabited, Repr

/-- The bounds of a byte that continues a character. -/
def continuation : UInt8 × UInt8 := (0x80, 0xBF)

/-- Begins a character. Some first bytes narrow the bounds of the second, so that no character has two
spellings and all characters exist. -/
def start (b : UInt8) : Start :=
  if b < 0x80 then .char (Char.ofNat b.toNat)
  else if b < 0xC2 then .flaw
  else if b < 0xE0 then .part ⟨b.toNat - 0xC0, continuation, 0⟩
  else if b < 0xF0 then
    .part ⟨b.toNat - 0xE0, if b = 0xE0 then (0xA0, 0xBF) else if b = 0xED then (0x80, 0x9F) else continuation, 1⟩
  else if b < 0xF5 then
    .part ⟨b.toNat - 0xF0, if b = 0xF0 then (0x90, 0xBF) else if b = 0xF4 then (0x80, 0x8F) else continuation, 2⟩
  else .flaw

/-- Whether a byte continues a character. -/
def Partial.fits (p : Partial) (b : UInt8) : Bool := p.bounds.1 ≤ b && b ≤ p.bounds.2

/-- What the bytes so far and one more stand for. -/
def Partial.extended (p : Partial) (b : UInt8) : Nat := p.code * 64 + b.toNat % 64

/-- The characters and the flaws of bytes, given what has begun before them. -/
def piecesFrom : Option Partial → List UInt8 → List (Option Char)
  | none, [] => []
  | some _, [] => [none]
  | none, b :: bs =>
    match start b with
    | .char c => some c :: piecesFrom none bs
    | .part p => piecesFrom (some p) bs
    | .flaw => none :: piecesFrom none bs
  | some p, b :: bs =>
    if p.fits b then
      match p.left with
      | 0 => some (Char.ofNat (p.extended b)) :: piecesFrom none bs
      | left + 1 => piecesFrom (some ⟨p.extended b, continuation, left⟩) bs
    else
      match start b with
      | .char c => none :: some c :: piecesFrom none bs
      | .part q => none :: piecesFrom (some q) bs
      | .flaw => none :: none :: piecesFrom none bs

/-- The characters and the flaws of bytes. -/
def pieces (bs : List UInt8) : List (Option Char) := piecesFrom none bs

/-- The text of bytes without a flaw. -/
def decode? (bs : List UInt8) : Option String := ((pieces bs).mapM id).map String.ofList

/-- The sign that stands for a flaw. -/
def replacement : Char := '\ufffd'

/-- The characters of bytes, in which a sign stands for each flaw. -/
def characters (bs : List UInt8) : List Char := (pieces bs).map (·.getD replacement)

/-- The text of bytes, in which a sign stands for each flaw. -/
def decode (bs : List UInt8) : String := String.ofList (characters bs)

end Scratchpad.Utf8
