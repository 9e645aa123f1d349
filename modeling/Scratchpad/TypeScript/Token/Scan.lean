import Scratchpad.TypeScript.Letter
import Scratchpad.TypeScript.Token

/-!
# Scanning

Reading one token at a position of the source. Blanks, line ends and comments in front of a token
belong to no token; they are stepped over first. Two readings depend on the grammar and are asked for
by it: a slash that begins a regular expression, and the pieces of a template.

## Main definitions

* `skipGap`: steps over what stands between tokens.
* `scanToken`: the token at a position.
* `scanRegex`, `scanTemplatePiece`: readings on request.
-/

namespace Scratchpad.TypeScript

/-- A source text, character by character. -/
abbrev Source := Array Char

namespace Source

/-- The text between two positions. -/
def slice (s : Source) (i j : Nat) : String :=
  String.ofList (s.extract i j).toList

/-- Whether the given text stands at a position. -/
def hasAt (s : Source) (i : Nat) (t : String) : Bool :=
  t.toList.zipIdx.all fun (c, k) => s[i + k]? == some c

/-- The first position from `i` on whose character fails the test. -/
def advance (s : Source) (p : Char → Bool) (i : Nat) : Nat :=
  if h : i < s.size then
    if p s[i] then advance s p (i + 1) else i
  else i
termination_by s.size - i

/-- Whether a character at a position passes the test. -/
def test (s : Source) (i : Nat) (p : Char → Bool) : Bool :=
  match s[i]? with
  | some c => p c
  | none => false

end Source

/-- What stands between two tokens: where it ends, whether a line ended in it, what was wrong in it. -/
structure Gap where
  stop : Nat
  endsLine : Bool
  notices : List Notice

/-- The position after the end of a comment that began earlier, and whether a line ended before. Comments
without an end reach to the end of the source. -/
def commentEnd (s : Source) (i : Nat) (endsLine : Bool) : Nat × Bool × Bool :=
  if h : i < s.size then
    if s[i] == '*' && s[i + 1]? == some '/' then (i + 2, endsLine, true)
    else commentEnd s (i + 1) (endsLine || isLineBreak s[i])
  else (s.size, endsLine, false)
termination_by s.size - i

/-- Steps over blanks, line ends and comments. A markup comment opens in any place; a markup comment end
counts as a comment when nothing but a gap stands before it on its line. -/
def skipGap (s : Source) (i : Nat) (endsLine : Bool) (notices : List Notice) : Gap :=
  if h : i < s.size then
    let c := s[i]
    if isLineBreak c then skipGap s (i + 1) true notices
    else if isBlank c then skipGap s (i + 1) endsLine notices
    else if c == '/' && s[i + 1]? == some '/' then
      skipGap s (max (i + 1) (s.advance (fun c => !isLineBreak c) i)) endsLine notices
    else if c == '/' && s[i + 1]? == some '*' then
      let e := commentEnd s (i + 2) endsLine
      let notices := if e.2.2 then notices else notices ++ [⟨⟨s.size, .unterminatedComment⟩, .anywhere⟩]
      skipGap s (max (i + 1) e.1) e.2.1 notices
    else if s.hasAt i "<!--" || (endsLine && s.hasAt i "-->") then
      skipGap s (max (i + 1) (s.advance (fun c => !isLineBreak c) i)) endsLine
        (notices ++ [⟨⟨i, .markupComment⟩, .moduleCode⟩])
    else ⟨i, endsLine, notices⟩
  else ⟨i, endsLine, notices⟩
termination_by s.size - i

/-- A gap takes all line ends. -/
theorem isLineBreak_skipGap (s : Source) (i : Nat) (endsLine : Bool) (notices : List Notice) {c : Char}
    (hc : s[(skipGap s i endsLine notices).stop]? = some c) : isLineBreak c = false := by
  fun_induction skipGap s i endsLine notices with
  | case1 _ _ _ _ _ _ ih => exact ih hc
  | case2 _ _ _ _ _ _ _ ih => exact ih hc
  | case3 _ _ _ _ _ _ _ _ ih => exact ih hc
  | case4 _ _ _ _ _ _ _ _ _ _ _ ih => exact ih hc
  | case5 _ _ _ _ _ _ _ _ _ _ ih => exact ih hc
  | case6 i _ _ h d hbreak =>
    obtain rfl : d = c := by simpa [h] using hc
    simpa using hbreak
  | case7 i _ _ h => simp [h] at hc

/-! ### Escapes -/

/-- The value of a hexadecimal digit. -/
def hexValue (c : Char) : Option Nat :=
  if c.isDigit then some (c.toNat - 48)
  else if 'a' ≤ c && c ≤ 'f' then some (c.toNat - 87)
  else if 'A' ≤ c && c ≤ 'F' then some (c.toNat - 55)
  else none

/-- The number written by `count` hexadecimal digits from `i` on. -/
def hexNumber (s : Source) (i count : Nat) : Option Nat :=
  (List.range count).foldlM (fun n k => do
    let c ← s[i + k]?
    let d ← hexValue c
    return 16 * n + d) 0

/-- The code point of an escape whose `u` stands at `i`, and the position behind it: four hexadecimal
digits, or digits in braces up to the largest code point. -/
def unicodeEscape (s : Source) (i : Nat) : Option (Nat × Nat) :=
  if s[i + 1]? == some '\x7b' then
    let j := s.advance (fun c => (hexValue c).isSome) (i + 2)
    if j > i + 2 && s[j]? == some '\x7d' then
      let n := (s.extract (i + 2) j).foldl (fun n c => 16 * n + (hexValue c).getD 0) 0
      if n ≤ 0x10FFFF then some (n, j + 1) else none
    else none
  else (hexNumber s (i + 1) 4).map fun n => (n, i + 5)

/-- An octal digit. -/
def isOctal (c : Char) : Bool :=
  '0' ≤ c && c ≤ '7'

/-- What one backslash sequence stands for. -/
inductive Escape where
  /-- A character, or none for a continued line, and the position behind. -/
  | stands (value : Option Nat) (stop : Nat)
  /-- An octal escape, which strict code and templates forbid. -/
  | octal (value stop : Nat)
  | malformed

/-- Reads the sequence whose backslash stands at `i`. -/
def scanEscape (s : Source) (i : Nat) : Escape :=
  match s[i + 1]? with
  | none => .malformed
  | some c =>
    match c with
    | 'n' => .stands (some 10) (i + 2)
    | 'r' => .stands (some 13) (i + 2)
    | 't' => .stands (some 9) (i + 2)
    | 'b' => .stands (some 8) (i + 2)
    | 'v' => .stands (some 11) (i + 2)
    | 'f' => .stands (some 12) (i + 2)
    | '\r' => .stands none (if s[i + 2]? == some '\n' then i + 3 else i + 2)
    | '\n' | '\u2028' | '\u2029' => .stands none (i + 2)
    | 'x' =>
      match hexNumber s (i + 2) 2 with
      | some n => .stands (some n) (i + 4)
      | none => .malformed
    | 'u' =>
      match unicodeEscape s (i + 1) with
      | some (n, j) => .stands (some n) j
      | none => .malformed
    | _ =>
      if c == '0' && !(s.test (i + 2) Char.isDigit) then .stands (some 0) (i + 2)
      else if c.isDigit then .octal (c.toNat - 48) (i + 2)
      else .stands (some c.toNat) (i + 2)

/-! ### Words -/

/-- Reads the characters of a word from `i` on. The flag tells whether an escape was used; a malformed
escape is reported at its backslash. -/
def scanWordPart (s : Source) (i : Nat) (acc : List Char) (isEscaped : Bool) :
    Except Flaw (List Char × Nat × Bool) :=
  if h : i < s.size then
    let c := s[i]
    if isWordPart c then scanWordPart s (i + 1) (c :: acc) isEscaped
    else if c == '\\' then
      if s[i + 1]? != some 'u' then .error ⟨i, .escapeExpected⟩
      else match unicodeEscape s (i + 1) with
        | none => .error ⟨i, .badEscape⟩
        | some (n, j) =>
          let c := Char.ofNat n
          if (if acc.isEmpty then isWordStart c else isWordPart c) then
            scanWordPart s (max (i + 1) j) (c :: acc) true
          else .error ⟨i, .invalidWordCharacter⟩
    else .ok (acc, i, isEscaped)
  else .ok (acc, i, isEscaped)
termination_by s.size - i

/-! ### Numbers -/

/-- Digits with underscores between them: the position behind, and whether an underscore is out of
place. -/
def scanDigits (s : Source) (isDigit : Char → Bool) (i : Nat) : Nat × Bool :=
  let j := s.advance (fun c => isDigit c || c == '_') i
  let misplaced := (List.range (j - i)).any fun k =>
    s[i + k]? == some '_' &&
      (k == 0 || !(s.test (i + k - 1) isDigit) || !(s.test (i + k + 1) isDigit))
  (j, misplaced)

/-- The digits of a radix named by a letter. -/
def radixDigit (letter c : Char) : Bool :=
  match letter with
  | 'x' | 'X' => (hexValue c).isSome
  | 'o' | 'O' => isOctal c
  | _ => c == '0' || c == '1'

/-- The radix named by a letter. -/
def radixOf (letter : Char) : Nat :=
  match letter with
  | 'x' | 'X' => 16
  | 'o' | 'O' => 8
  | _ => 2

/-- Where the fraction and exponent of a decimal number end, given where its integer part ends. -/
def scanFraction (s : Source) (i : Nat) : Except Flaw (Nat × Bool) :=
  let (i, bad) :=
    if s[i]? == some '.' then scanDigits s Char.isDigit (i + 1) else (i, false)
  if s[i]? == some 'e' || s[i]? == some 'E' then
    let j := if s[i + 1]? == some '+' || s[i + 1]? == some '-' then i + 2 else i + 1
    if s.test j Char.isDigit then
      let (k, bad') := scanDigits s Char.isDigit j
      .ok (k, bad || bad')
    else .error ⟨j, .digitExpected 10⟩
  else .ok (i, bad)

/-- Reads a number that begins at `i`: its lexeme, the position behind it, and what was wrong. No word may
follow a number directly. -/
def scanNumber (s : Source) (i : Nat) : Lexeme × Nat × List Notice :=
  let finish (j : Nat) (isInteger : Bool) (notices : List Notice) : Lexeme × Nat × List Notice :=
    let (lexeme, k) : Lexeme × Nat :=
      if isInteger && s[j]? == some 'n' then (.bigint (s.slice i (j + 1)), j + 1)
      else (.number (s.slice i j), j)
    if s.test k isWordStart then (.broken ⟨k, .wordAfterNumber⟩, k + 1, notices)
    else (lexeme, k, notices)
  let separator (bad : Bool) : List Notice := if bad then [⟨⟨i, .misplacedSeparator⟩, .anywhere⟩] else []
  let decimal (j : Nat) (notices : List Notice) : Lexeme × Nat × List Notice :=
    if s[j]? == some 'n' then finish j true notices
    else match scanFraction s j with
      | .error flaw => (.broken flaw, flaw.pos, notices)
      | .ok (k, bad) => finish k false (notices ++ separator bad)
  match s[i]?, s[i + 1]? with
  | some '.', _ => decimal i []
  | some '0', some letter =>
    if "xXoObB".toList.contains letter then
      let (j, bad) := scanDigits s (radixDigit letter) (i + 2)
      if j == i + 2 then (.broken ⟨i + 2, .digitExpected (radixOf letter)⟩, i + 2, [])
      else finish j true (separator bad)
    else
      let (j, bad) := scanDigits s Char.isDigit i
      if j == i + 1 then decimal j []
      else if (s.extract i j).all (fun c => isOctal c || c == '_') then
        finish j false (separator bad ++
          [⟨⟨i, .octalNumber⟩, .anywhere⟩, ⟨⟨i, .octalInStrictCode⟩, .strictCode⟩])
      else decimal j (separator bad ++ [⟨⟨i, .leadingZeroInStrictCode⟩, .strictCode⟩])
  | _, _ =>
    let (j, bad) := scanDigits s Char.isDigit i
    decimal j (separator bad)

/-! ### Quoted text -/

/-- Reads quoted text from behind its opening quote on. Text that its line or the source cuts off is
delivered with a notice at the quote; a malformed escape breaks it. -/
def scanQuoted (s : Source) (quote : Char) (start i : Nat) (acc : List Char) (notices : List Notice) :
    Lexeme × Nat × List Notice :=
  if h : i < s.size then
    let c := s[i]
    if c == quote then
      (.text (s.slice start (i + 1)) (String.ofList acc.reverse), i + 1, notices)
    else if c == '\n' || c == '\r' then
      (.text (s.slice start i) (String.ofList acc.reverse), i,
        notices ++ [⟨⟨start, .unterminatedText⟩, .anywhere⟩])
    else if c == '\\' then
      match scanEscape s i with
      | .stands (some n) j => scanQuoted s quote start (max (i + 1) j) (Char.ofNat n :: acc) notices
      | .stands none j => scanQuoted s quote start (max (i + 1) j) acc notices
      | .octal n j =>
        scanQuoted s quote start (max (i + 1) j) (Char.ofNat n :: acc)
          (notices ++ [⟨⟨i, .octalInStrictCode⟩, .strictCode⟩])
      | .malformed =>
        if i + 1 < s.size then (.broken ⟨i, .badEscape⟩, i + 1, notices)
        else (.text (s.slice start s.size) (String.ofList acc.reverse), s.size,
          notices ++ [⟨⟨start, .unterminatedText⟩, .anywhere⟩])
    else scanQuoted s quote start (i + 1) (c :: acc) notices
  else
    (.text (s.slice start i) (String.ofList acc.reverse), i,
      notices ++ [⟨⟨start, .unterminatedText⟩, .anywhere⟩])
termination_by s.size - i

/-! ### Punctuation -/

/-- Punctuation, longest first. -/
def marks : List String :=
  [">>>=", "...", "===", "!==", "**=", "<<=", ">>=", ">>>", "&&=", "||=", "??=", "=>", "==", "!=",
    "++", "+=", "--", "-=", "**", "*=", "/=", "%=", "<<", "<=", ">>", ">=", "&&", "&=", "||", "|=",
    "??", "?.", "^=", "\x7b", "\x7d", "(", ")", "[", "]", ";", ",", "~", "@", ":", ".", "?", "=", "!",
    "+", "-", "*", "/", "%", "<", ">", "&", "|", "^", "#", "\x60"]

/-- The longest punctuation at a position. An optional access is not read where a decimal fraction
follows a question mark. -/
def scanMark (s : Source) (i : Nat) : Option String :=
  marks.find? fun m => s.hasAt i m && !(m == "?." && s.test (i + 2) Char.isDigit)

/-! ### Tokens -/

/-- Reads the token at a position that is behind all gaps. -/
def scanLexeme (s : Source) (i : Nat) : Lexeme × Nat × List Notice :=
  match s[i]? with
  | none => (.done, i, [])
  | some c =>
    if isWordStart c || c == '\\' then
      match scanWordPart s i [] false with
      | .error flaw => (.broken flaw, i + 1, [])
      | .ok (chars, j, isEscaped) =>
        let text := String.ofList chars.reverse
        if isEscaped && isReservedWord text then (.broken ⟨i, .escapeInReservedWord text⟩, j, [])
        else (.word text isEscaped, j, [])
    else if c.isDigit || (c == '.' && s.test (i + 1) Char.isDigit) then scanNumber s i
    else if c == '"' || c == '\'' then scanQuoted s c i (i + 1) [] []
    else match scanMark s i with
      | some m => (.mark m, i + m.length, [])
      | none => (.broken ⟨i, .strangeCharacter c⟩, i + 1, [])

/-- The token at or behind a position. The first token of a source begins a line. -/
def scanToken (s : Source) (i : Nat) : Token :=
  let gap := skipGap s i (i == 0) []
  let (lexeme, stop, notices) := scanLexeme s gap.stop
  { lexeme, start := gap.stop, stop, startsLine := gap.endsLine, notices := gap.notices ++ notices }

/-! ### Readings on request -/

/-- Where the body of a regular expression ends, from behind its opening slash on. -/
def regexBodyEnd (s : Source) (i : Nat) (isInClass : Bool) : Option Nat :=
  if h : i < s.size then
    let c := s[i]
    if isLineBreak c then none
    else if c == '\\' then
      if s.test (i + 1) isLineBreak then none else regexBodyEnd s (i + 2) isInClass
    else if c == '[' then regexBodyEnd s (i + 1) true
    else if c == ']' then regexBodyEnd s (i + 1) false
    else if c == '/' && !isInClass then some i
    else regexBodyEnd s (i + 1) isInClass
  else none
termination_by s.size - i

/-- A regular expression whose opening slash stands at `i`: the position behind its body, and behind its
flags. -/
def scanRegex (s : Source) (i : Nat) : Option (Nat × Nat) :=
  (regexBodyEnd s (i + 1) false).map fun j => (j + 1, s.advance isWordPart (j + 1))

/-- How a piece of a template ends. -/
inductive PieceEnd where
  /-- At the quotation mark that closes the template. -/
  | closed
  /-- At an expression. -/
  | opened
  /-- At the end of the source. -/
  | cutOff
deriving DecidableEq

/-- A piece of a template: its text with line ends normalized, the position behind its end, how it ends,
and the first escape in it that only a tag may see. -/
structure TemplatePiece where
  text : String
  stop : Nat
  ending : PieceEnd
  badEscape : Option Nat

/-- Reads a piece of a template from `i` on. -/
def scanTemplatePiece (s : Source) (i : Nat) (acc : List Char) (badEscape : Option Nat) : TemplatePiece :=
  if h : i < s.size then
    let c := s[i]
    if c == '\x60' then ⟨String.ofList acc.reverse, i + 1, .closed, badEscape⟩
    else if c == '$' && s[i + 1]? == some '\x7b' then
      ⟨String.ofList acc.reverse, i + 2, .opened, badEscape⟩
    else if c == '\r' then
      scanTemplatePiece s (if s[i + 1]? == some '\n' then i + 2 else i + 1) ('\n' :: acc) badEscape
    else if c == '\\' then
      let badEscape := badEscape <|> match scanEscape s i with
        | .stands .. => none
        | _ => some i
      match s[i + 1]? with
      | none => scanTemplatePiece s (i + 1) (c :: acc) badEscape
      | some d =>
        if d == '\r' then
          scanTemplatePiece s (if s[i + 2]? == some '\n' then i + 3 else i + 2) ('\n' :: c :: acc)
            badEscape
        else scanTemplatePiece s (i + 2) (d :: c :: acc) badEscape
    else scanTemplatePiece s (i + 1) (c :: acc) badEscape
  else ⟨String.ofList acc.reverse, i, .cutOff, badEscape⟩
termination_by s.size - i
decreasing_by all_goals (first | omega | (split <;> omega))

end Scratchpad.TypeScript
