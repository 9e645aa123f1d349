import Scratchpad.Machine.Shell.Arithmetic
import Scratchpad.Text.Utf8

/-!
# Formatted text of a shell

A format is text in which some characters are escaped and in which arguments are inserted. It is used again
and again until no argument is left.

## Main definitions

* `escape`: the bytes that an escape stands for.
* `Format.Part`, `Format.parts`: the parts of a format.
* `Format.bytes`: a format with arguments inserted.
-/

namespace Scratchpad.Machine.Shell

/-- Whether a character is an octal digit. -/
def isOctal (c : Char) : Bool := '0' ≤ c && c ≤ '7'

/-- The byte that octal digits stand for. -/
def octalByte (ds : List Char) : UInt8 := UInt8.ofNat (ds.foldl (fun n d => n * 8 + (d.toNat - '0'.toNat)) 0)

/-- The characters that stand for a byte behind a backslash. -/
def escapes : List (Char × UInt8) :=
  [('\\', 0x5C), ('a', 0x07), ('b', 0x08), ('f', 0x0C), ('n', 0x0A), ('r', 0x0D), ('t', 0x09), ('v', 0x0B)]

/-- The bytes of what stands behind a backslash, and what follows. Octal digits may have to begin with a
zero that does not count. -/
def escape (needsZero : Bool) (cs : List Char) : List UInt8 × List Char :=
  match cs with
  | [] => ([0x5C], [])
  | c :: rest =>
    match escapes.lookup c with
    | some b => ([b], rest)
    | none =>
      let digits := if needsZero then if c == '0' then some rest else none else if isOctal c then some cs else none
      match digits with
      | none => ([0x5C], cs)
      | some ds =>
        let ds := (ds.take 3).takeWhile isOctal
        ([octalByte ds], (if needsZero then rest else cs).drop ds.length)

/-- Text with escapes. It ends where an escape says so. -/
def unescaped : Nat → List Char → List UInt8 × Bool
  | 0, _ | _, [] => ([], false)
  | _, '\\' :: 'c' :: _ => ([], true)
  | fuel + 1, '\\' :: cs =>
    let (bytes, rest) := escape true cs
    let (more, isEnded) := unescaped fuel rest
    (bytes ++ more, isEnded)
  | fuel + 1, c :: cs =>
    let (more, isEnded) := unescaped fuel cs
    (Utf8.encode (String.singleton c) ++ more, isEnded)

namespace Format

/-- How an argument is inserted. -/
structure Field where
  flags : List Char
  /-- How many characters there are at least. -/
  width : Nat
  /-- How many characters of a text there are at most, or digits of a number at least. -/
  precision : Option Nat
  kind : Char
deriving DecidableEq, Inhabited, Repr

/-- A part of a format. -/
inductive Part where
  | bytes (bs : List UInt8)
  | field (f : Field)
deriving DecidableEq, Inhabited, Repr

/-- A field behind a percent sign, and what follows. -/
def field (cs : List Char) : Field × List Char :=
  let isFlag := ['-', '0', '+', ' ', '#'].contains
  let flags := cs.takeWhile isFlag
  let cs := cs.dropWhile isFlag
  let width := Number.natOfDigits (cs.takeWhile Char.isDigit)
  let cs := cs.dropWhile Char.isDigit
  let (precision, cs) := match cs with
    | '.' :: cs => (some (Number.natOfDigits (cs.takeWhile Char.isDigit)), cs.dropWhile Char.isDigit)
    | cs => (none, cs)
  (⟨flags, width, precision, cs.headD '%'⟩, cs.drop 1)

/-- The parts of a format. -/
def partsWithin : Nat → List Char → List Part
  | 0, _ | _, [] => []
  | fuel + 1, '\\' :: cs =>
    let (bs, rest) := escape false cs
    .bytes bs :: partsWithin fuel rest
  | fuel + 1, '%' :: '%' :: cs => .bytes [0x25] :: partsWithin fuel cs
  | fuel + 1, '%' :: cs =>
    let (f, rest) := field cs
    .field f :: partsWithin fuel rest
  | fuel + 1, c :: cs => .bytes (Utf8.encode (String.singleton c)) :: partsWithin fuel cs

/-- The parts of a format. -/
def parts (format : String) : List Part := partsWithin format.length format.toList

/-- Text with enough blanks, on the side that the flags say. -/
def padded (f : Field) (bs : List UInt8) : List UInt8 :=
  let blanks := List.replicate (f.width - bs.length) 0x20
  if f.flags.contains '-' then bs ++ blanks else blanks ++ bs

/-- A number in a base. -/
def digits (base : Nat) (n : Nat) : List Char := Nat.toDigits base n

/-- A number as a field says. -/
def number (f : Field) (n : Int) : List UInt8 :=
  let magnitude : Nat := if f.kind == 'd' || f.kind == 'i' then n.natAbs else (UInt64.ofInt n).toNat
  let ds := match f.kind with
    | 'x' => digits 16 magnitude
    | 'X' => (digits 16 magnitude).map Char.toUpper
    | 'o' => digits 8 magnitude
    | _ => digits 10 magnitude
  let sign := if f.kind != 'd' && f.kind != 'i' then []
    else if n < 0 then ['-'] else if f.flags.contains '+' then ['+'] else if f.flags.contains ' ' then [' '] else []
  let least := f.precision.getD
    (if f.flags.contains '0' && !f.flags.contains '-' then f.width - sign.length else 0)
  let zeros := List.replicate (least - ds.length) '0'
  padded f (Utf8.encode (String.ofList (sign ++ zeros ++ ds)))

/-- The number that an argument stands for, if it is one. A quotation mark stands for the number of the
character behind it. -/
def numberOf? (s : String) : Option Int :=
  match s.toList with
  | [] => some 0
  | '\'' :: c :: _ | '"' :: c :: _ => some c.toNat
  | '-' :: ds => if ds.any Char.isDigit && ds.all Char.isAlphanum then some (-Arithmetic.numberOf ds) else none
  | c :: ds =>
    let ds := if c == '+' then ds else c :: ds
    if (ds.head?.any Char.isDigit) && ds.all Char.isAlphanum then some (Arithmetic.numberOf ds) else none

/-- What has been made of a format. -/
structure Result where
  bytes : List UInt8
  /-- The arguments that are left. -/
  rest : List String
  /-- Arguments that should have been numbers. -/
  misfits : List String
  isEnded : Bool
deriving DecidableEq, Inhabited, Repr

/-- Inserts arguments into parts. -/
def insert (parts : List Part) (arguments : List String) : Result :=
  parts.foldl (fun r part =>
    if r.isEnded then r
    else match part with
      | .bytes bs => { r with bytes := r.bytes ++ bs }
      | .field f =>
        let argument := r.rest.headD ""
        let r := { r with rest := r.rest.drop 1 }
        match f.kind with
        | 's' =>
          let bs := Utf8.encode argument
          { r with bytes := r.bytes ++ padded f (bs.take (f.precision.getD bs.length)) }
        | 'c' => { r with bytes := r.bytes ++ padded f ((Utf8.encode argument).take 1) }
        | 'b' =>
          let (bs, isEnded) := unescaped argument.length argument.toList
          { r with bytes := r.bytes ++ padded f bs, isEnded := isEnded }
        | _ =>
          match numberOf? argument with
          | some n => { r with bytes := r.bytes ++ number f n }
          | none => { r with bytes := r.bytes ++ number f 0, misfits := r.misfits ++ [argument] })
    ⟨[], arguments, [], false⟩

/-- A format, used again while arguments are left. -/
def repeatedly (parts : List Part) : Nat → List String → Result
  | 0, arguments => insert parts arguments
  | fuel + 1, arguments =>
    let r := insert parts arguments
    if r.isEnded || r.rest.isEmpty || r.rest.length == arguments.length then r
    else
      let more := repeatedly parts fuel r.rest
      { more with bytes := r.bytes ++ more.bytes, misfits := r.misfits ++ more.misfits }

/-- A format with arguments inserted. -/
def bytes (format : String) (arguments : List String) : Result :=
  repeatedly (parts format) arguments.length arguments

end Format

end Scratchpad.Machine.Shell
