import Scratchpad.TypeScript.Erasure.Types
import Scratchpad.TypeScript.Number

/-!
# Values of enumerations

A member of an enumeration has a value that is known in advance, if its initializer consists of
constants, other members and a few operators, or if it counts on from the member before. Any other
initializer is code that runs when the enumeration is built.

## Main definitions

* `MemberValue`: what a member stands for.
* `MemberTable`: the members that are known so far.
* `MemberTable.value`: what an initializer stands for.
-/

namespace Scratchpad.TypeScript

/-- What a member of an enumeration stands for. -/
inductive MemberValue where
  | text (s : String)
  | number (x : Float)
  /-- Code that has to run. -/
  | code (e : Node)
  /-- Nothing to count on from. -/
  | missing
deriving Inhabited

/-- A text in double quotes, or in single quotes if it holds more double quotes than single ones. -/
def quotedConstant (s : String) : String :=
  let cs := s.toList
  let quote := if cs.count '\'' < cs.count '"' then '\'' else '"'
  let shown := cs.flatMap fun c =>
    if c == quote then ['\\', c]
    else match c with
      | '\\' => ['\\', '\\']
      | '\n' => ['\\', 'n']
      | '\r' => ['\\', 'r']
      | '\x08' => ['\\', 'b']
      | '\x0b' => ['\\', 'v']
      | '\x0c' => ['\\', 'f']
      | '\x00' => "\\x00".toList
      | '\u2028' => "\\u2028".toList
      | '\u2029' => "\\u2029".toList
      | '\ufeff' => "\\uFEFF".toList
      | c => [c]
  String.ofList (quote :: shown ++ [quote])

namespace Node

/-- A text as a node that was not in the source. -/
def ofText (pos : Nat) (s : String) : Node := literal pos (.text (quotedConstant s) s)

/-- A number as a node that was not in the source. -/
def ofNumber (pos : Nat) (x : Float) : Node := literal pos (.number (numberText x))

/-- The name of a member of an enumeration. -/
def memberKeyText : Node → String
  | word _ w => w
  | identifier _ w _ => w
  | literal _ (.text _ value) => value
  | _ => ""

/-- The enumeration and the member that an access names. -/
def memberAccess? : Node → Option (Variable × String)
  | member _ .plain (identifier _ name scope) (word _ w) => some (⟨name, scope⟩, w)
  | index _ .plain (identifier _ name scope) (literal _ (.text _ value)) => some (⟨name, scope⟩, value)
  | _ => none

/-- The enumerations in a tree, in the order of the source. -/
def enumsInOrder (n : Node) : List Node :=
  (n.searchUntil fun _ => false).filter fun
    | enumDeclaration .. => true
    | _ => false

end Node

namespace MemberValue

/-- Whether the value is known in advance. -/
def isConstant : MemberValue → Bool
  | text _ | number _ => true
  | _ => false

/-- The value of a member that counts on from one with this value. -/
def next : MemberValue → MemberValue
  | number x => number (x + 1)
  | _ => missing

/-- The value as code. -/
def toNode (pos : Nat) : MemberValue → Node
  | text s => .ofText pos s
  | number x => .ofNumber pos x
  | code e => e
  | missing => .unary pos "void" (.ofNumber pos 0)

/-- The result of an operator between two numbers. -/
def arithmetic (op : String) (x y : Float) : Option Float :=
  let bits (f : Nat → Nat → Nat) := some (Double.ofSigned (f (Double.lowBits x) (Double.lowBits y)))
  let shift := Double.lowBits y % 32
  match op with
  | "+" => some (x + y)
  | "-" => some (x - y)
  | "*" => some (x * y)
  | "/" => some (x / y)
  | "%" => some (Double.remainder x y)
  | "**" => some (x.pow y)
  | "|" => bits (· ||| ·)
  | "&" => bits (· &&& ·)
  | "^" => bits (· ^^^ ·)
  | "<<" => some (Double.ofSigned (Double.lowBits x <<< shift))
  | ">>>" => some (Float.ofNat (Double.lowBits x >>> shift))
  | ">>" =>
    let n := Double.lowBits x
    let sign := if n ≥ Number.twoTo 31 then UInt64.size - UInt32.size else 0
    some (Double.ofSigned ((n + sign) >>> shift))
  | _ => none

/-- Operators that work on values known in advance. -/
def foldableOperators : List String :=
  ["+", "-", "*", "/", "%", "**", "<<", ">>", ">>>", "|", "&", "^"]

/-- The result of an operator between two operands, where both are known in advance. -/
def combine (op : String) : MemberValue → MemberValue → Option MemberValue
  | number x, number y => (arithmetic op x y).map number
  | text s, text t => if op == "+" then some (text (s ++ t)) else none
  | number x, text t => if op == "+" then some (text (numberText x ++ t)) else none
  | text s, number y => if op == "+" then some (text (s ++ numberText y)) else none
  | _, _ => none

/-- The text of a value inside a template. -/
def inTemplate? : MemberValue → Option String
  | text s => some s
  | number x => some (numberText x)
  | _ => none

end MemberValue

/-- The members that are known so far. -/
abbrev MemberTable := List ((Variable × String) × MemberValue)

namespace MemberTable

/-- What a member stands for, if it is known. -/
def get? (table : MemberTable) (enum : Variable) (name : String) : Option MemberValue :=
  (table.find? fun (key, _) => key == (enum, name)).map (·.2)

/-- The value of a member that is known in advance. -/
def constant? (table : MemberTable) (enum : Variable) (name : String) : Option MemberValue :=
  (table.get? enum name).filter MemberValue.isConstant

/-- A name inside an enumeration, with the enumeration in front if it is one of its members. -/
def qualify (table : MemberTable) (enum : Variable) : Node → Node
  | n@(.identifier p name _) =>
    if (table.get? enum name).isSome then
      .member p .plain (.identifier p enum.name enum.scope) (.word p name)
    else n
  | n => n

mutual

/-- What an initializer stands for, with code left as it stands. -/
def valueOf (table : MemberTable) (enum : Variable) : Node → MemberValue
  | .literal _ (.text _ value) => .text value
  | .literal _ (.number raw) => .number (numberOfConstant raw)
  | n@(.identifier _ name scope) =>
    if scope == 0 && name == "NaN" then .number (0 / 0)
    else if scope == 0 && name == "Infinity" then .number (1 / 0)
    else (table.constant? enum name).getD (.code n)
  | .paren _ e => valueOf table enum e
  | n@(.unary p op argument) =>
    if ["+", "-", "~"].contains op then
      match valueOf table enum argument with
      | .number x =>
        if op == "+" then .number x
        else if op == "-" then .number (-x)
        else .number (Double.ofSigned (UInt32.size - 1 - Double.lowBits x))
      | v => .code (.unary p op (v.toNode p))
    else .code n
  | n@(.binary p op left right) =>
    if MemberValue.foldableOperators.contains op then
      let l := valueOf table enum left
      let r := valueOf table enum right
      match MemberValue.combine op l r with
      | some v => v
      | none =>
        .code (.binary p op (if l.isConstant then l.toNode p else left)
          (if r.isConstant then r.toNode p else right))
    else .code n
  | n@(.member ..) | n@(.index ..) =>
    match n.memberAccess? with
    | some (other, name) => (table.constant? other name).getD (.code n)
    | none => .code n
  | n@(.template _ quasis values) =>
    match quasis, templateTexts table enum values with
    | first :: others, some texts =>
      .text ((others.zip texts).foldl (fun s (quasi, t) => s ++ t ++ quasi) first)
    | _, _ => .code n
  | n => .code n
termination_by structural n => n

/-- The texts of the values in a template, if all are known in advance. -/
def templateTexts (table : MemberTable) (enum : Variable) : List Node → Option (List String)
  | [] => some []
  | n :: ns => do
    let s ← (valueOf table enum n).inTemplate?
    return s :: (← templateTexts table enum ns)
termination_by structural ns => ns

end

/-- What an initializer stands for. -/
def value (table : MemberTable) (enum : Variable) (initializer : Node) : MemberValue :=
  match valueOf table enum initializer with
  | .code e => .code (e.mapUp (table.qualify enum))
  | v => v

/-- Adds the members of an enumeration. -/
def addMembers (table : MemberTable) (enum : Variable) (members : List Node) : MemberTable :=
  (members.foldl (fun (table, next) m =>
    match m with
    | .enumMember _ key initializer =>
      let v := if initializer.isAbsent then next else value table enum initializer
      (((enum, key.memberKeyText), v) :: table, v.next)
    | _ => (table, next)) (table, MemberValue.number 0)).1

/-- Adds the enumerations among nodes. -/
def addEnums (table : MemberTable) (nodes : List Node) : MemberTable :=
  nodes.foldl (fun table n =>
    match n with
    | .enumDeclaration _ _ (.identifier _ name scope) members => addMembers table ⟨name, scope⟩ members
    | _ => table) table

end MemberTable

end Scratchpad.TypeScript
