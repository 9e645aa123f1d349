import Scratchpad.Number.Digits

/-!
# Arithmetic of a shell

Expressions over whole numbers of 64 bits. Variables may be set on the way.

## Main definitions

* `Arithmetic.Fault`: why an expression has no value.
* `Arithmetic.value`: the value of an expression, and the variables that it sets.
-/

namespace Scratchpad.Machine.Shell.Arithmetic

/-- Why an expression has no value. -/
inductive Fault where
  | divisionByZero
  | primaryExpected
  | endExpected
  | unclosed
deriving DecidableEq, Inhabited, Repr

/-- What the user is told. -/
def Fault.message : Fault → String
  | divisionByZero => "division by zero"
  | primaryExpected => "expecting primary"
  | endExpected => "expecting EOF"
  | unclosed => "expecting ')'"

/-- The text that is left, and the variables that have been set. -/
structure State where
  rest : List Char
  bindings : List (String × Int)

/-- Reads from the text that is left. -/
abbrev Reader := StateT State (Except Fault)

/-- A number in 64 bits. -/
def wrapped (n : Int) : Int := (Int64.ofInt n).toInt

/-- A truth value as a number. -/
def truth (b : Bool) : Int := if b then 1 else 0

/-- What an operator makes of two numbers. -/
abbrev Operation := Int → Int → Except Fault Int

/-- An operation that needs a divisor. -/
def dividing (f : Int → Int → Int) : Operation := fun a b =>
  if b = 0 then throw .divisionByZero else return f a b

/-- The operators, the loosest first. -/
def levels : List (List (String × Operation)) :=
  [[("||", fun a b => .ok (truth (a != 0 || b != 0)))],
    [("&&", fun a b => .ok (truth (a != 0 && b != 0)))],
    [("|", fun a b => .ok (Int64.ofInt a ||| Int64.ofInt b).toInt)],
    [("^", fun a b => .ok (Int64.ofInt a ^^^ Int64.ofInt b).toInt)],
    [("&", fun a b => .ok (Int64.ofInt a &&& Int64.ofInt b).toInt)],
    [("==", fun a b => .ok (truth (a == b))), ("!=", fun a b => .ok (truth (a != b)))],
    [("<=", fun a b => .ok (truth (a ≤ b))), (">=", fun a b => .ok (truth (b ≤ a))),
      ("<", fun a b => .ok (truth (a < b))), (">", fun a b => .ok (truth (b < a)))],
    [("<<", fun a b => .ok (Int64.ofInt a <<< Int64.ofInt b).toInt),
      (">>", fun a b => .ok (Int64.ofInt a >>> Int64.ofInt b).toInt)],
    [("+", fun a b => .ok (a + b)), ("-", fun a b => .ok (a - b))],
    [("*", fun a b => .ok (a * b)), ("/", dividing Int.tdiv), ("%", dividing Int.tmod)]]

/-- The operators that set a variable, and what they do with its value before. -/
def assignments : List (String × Operation) :=
  ("=", fun _ b => .ok b) ::
    (levels.flatten.filter fun (sign, _) => !(["||", "&&", "==", "!=", "<=", ">=", "<", ">"].contains sign)).map
      fun (sign, f) => (sign ++ "=", f)

/-- All operators. A longer one counts before a shorter one. -/
def signs : List String :=
  let all := levels.flatten.map (·.1) ++ assignments.map (·.1)
  all.mergeSort fun a b => b.length ≤ a.length

/-- Passes over blanks. -/
def blanks : Reader Unit := modify fun s => { s with rest := s.rest.dropWhile Char.isWhitespace }

/-- The operator at the beginning of the text. -/
def sign? : Reader (Option String) := do
  blanks
  let rest := (← get).rest
  return signs.find? fun sign => sign.toList.isPrefixOf rest

/-- Passes over characters. -/
def skip (count : Nat) : Reader Unit := modify fun s => { s with rest := s.rest.drop count }

/-- Whether the text begins with a character, which is passed over then. -/
def accept (c : Char) : Reader Bool := do
  blanks
  if (← get).rest.head? == some c then
    skip 1
    return true
  else return false

/-- The number that digits stand for. The first ones may tell another base than ten. -/
def numberOf (ds : List Char) : Int :=
  let inBase (base : Nat) (ds : List Char) : Nat :=
    ds.foldl (fun n d =>
      let digit := if d.isDigit then d.toNat - '0'.toNat else d.toLower.toNat - 'a'.toNat + 10
      n * base + digit) 0
  match ds with
  | '0' :: 'x' :: ds | '0' :: 'X' :: ds => inBase 16 ds
  | '0' :: ds => inBase 8 ds
  | ds => Number.natOfDigits ds

/-- The value of a variable. -/
def valueOf (lookup : String → Int) (name : String) : Reader Int := do
  return ((← get).bindings.lookup name).getD (lookup name)

mutual

/-- A number, a variable, or an expression in parentheses. -/
def primary (lookup : String → Int) : Nat → Reader Int
  | 0 => throw .primaryExpected
  | fuel + 1 => do
    if ← accept '(' then
      let n ← expression lookup fuel
      if ← accept ')' then return n else throw .unclosed
    else if ← accept '-' then return wrapped (-(← primary lookup fuel))
    else if ← accept '+' then primary lookup fuel
    else if ← accept '~' then return wrapped (-(← primary lookup fuel) - 1)
    else if ← accept '!' then return truth ((← primary lookup fuel) == 0)
    else
      let word := (← get).rest.takeWhile fun c => c.isAlphanum || c == '_'
      match word with
      | [] => throw .primaryExpected
      | c :: _ =>
        skip word.length
        if c.isDigit then return wrapped (numberOf word)
        else
          let name := String.ofList word
          match (← sign?).bind fun sign => (assignments.lookup sign).map fun f => (sign, f) with
          | none => valueOf lookup name
          | some (sign, f) =>
            skip sign.length
            let right ← expression lookup fuel
            let n := wrapped (← f (← valueOf lookup name) right)
            modify fun s => { s with bindings := (name, n) :: s.bindings }
            return n

/-- What operators of some levels make of a number and what follows it. -/
def operations (lookup : String → Int) (level : List (String × Operation))
    (tighter : List (List (String × Operation))) (left : Int) : Nat → Reader Int
  | 0 => throw .primaryExpected
  | fuel + 1 => do
    match (← sign?).bind fun sign => (level.lookup sign).map fun f => (sign, f) with
    | none => return left
    | some (sign, f) =>
      skip sign.length
      let right ← operand lookup tighter fuel
      operations lookup level tighter (wrapped (← f left right)) fuel

/-- A number with operators of some levels. -/
def operand (lookup : String → Int) (levels : List (List (String × Operation))) : Nat → Reader Int
  | 0 => throw .primaryExpected
  | fuel + 1 => do
    match levels with
    | [] => primary lookup fuel
    | level :: tighter => operations lookup level tighter (← operand lookup tighter fuel) fuel

/-- An expression, which may choose between two others. -/
def expression (lookup : String → Int) : Nat → Reader Int
  | 0 => throw .primaryExpected
  | fuel + 1 => do
    let n ← operand lookup levels fuel
    if ← accept '?' then
      let yes ← expression lookup fuel
      if !(← accept ':') then throw .primaryExpected
      let no ← expression lookup fuel
      return if n == 0 then no else yes
    else return n

end

/-- The value of an expression, and the variables that it sets, the latest first. -/
def value (lookup : String → Int) (text : String) : Except Fault (Int × List (String × Int)) := do
  let cs := text.toList
  if cs.all Char.isWhitespace then return (0, [])
  let (n, s) ← (expression lookup (20 * (cs.length + 2))).run ⟨cs, []⟩
  if s.rest.all Char.isWhitespace then return (n, s.bindings) else throw .endExpected

end Scratchpad.Machine.Shell.Arithmetic
