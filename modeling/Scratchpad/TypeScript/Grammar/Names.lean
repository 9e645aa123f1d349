import Scratchpad.TypeScript.Grammar.Basic

/-!
# Names

Names of variables, of properties and of labels, and the keys of properties.

## Main definitions

* `Grammar.identifier`, `Grammar.bindingIdentifier`: names of variables.
* `Grammar.anyWord`: a name that may be a keyword.
* `Grammar.propertyKey`: a key in an object or class.
-/

namespace Scratchpad.TypeScript.Grammar

open Rule

/-- Reads any word, keywords included: its position and text. -/
def anyWord : Rule (Nat × String) := do
  let t ← current
  match t.lexeme with
  | .word w _ => advance; return (t.start, w)
  | _ => failHere .identifierExpected

/-- Reads any word as a name that stands for no variable. -/
def wordNode : Rule Node := do
  let (p, w) ← anyWord
  return .word p w

/-- Reads the name of a variable. -/
def identifier (allowYield allowAwait : Bool) : Rule Node := do
  let (p, w) ← anyWord
  let m ← mode
  if w == "enum" then report p (.reservedInStrictCode w)
  if w == "yield" || w == "let" || w == "static" || isStrictReservedWord w then
    reportStrict p (.reservedInStrictCode w)
  if w == "await" then
    if m.inAmbient then pure ()
    else if m.inStaticBlock then fail p .identifierExpected
    else if m.isModule || m.inAsync then fail p .awaitAsName
    else unless allowAwait do fail p .identifierExpected
  else if w == "yield" then unless allowYield do fail p .identifierExpected
  else if w == "arguments" && m.inField then report p .argumentsInField
  else if keywords.contains w && w != "this" then fail p .identifierExpected
  return .identifier p w 0

/-- Whether strict code forbids to bind a name. -/
def isUnbindable (w : String) : Bool := w == "eval" || w == "arguments"

/-- Reads a name that is being declared. -/
def bindingIdentifier (forbidLet : Bool) : Rule Node := do
  if forbidLet && (← atWord "let") then
    unexpected "let is reserved in const, let, class declaration"
  let n ← identifier true true
  let m ← mode
  match n with
  | .identifier p w _ =>
    if isUnbindable w then reportStrict p .evalOrArgumentsInStrictCode
    if (m.inAsync || m.inStaticBlock) && w == "await" then report p .identifierExpected
    if m.inGenerator && w == "yield" then report p .identifierExpected
  | _ => pure ()
  return n

/-- Reads a name where a variable is used or a label stands. -/
def referenceIdentifier : Rule Node := do
  let m ← mode
  identifier (!m.inGenerator) (!m.inAsync)

/-- Reads a private name. No blank may follow its hash. -/
def privateName : Rule Node := do
  let t ← current
  advance
  let next ← current
  if next.start != t.stop then fail t.start .spaceAfterHash
  match next.lexeme with
  | .word w _ =>
    advance
    return .privateName t.start w
  | _ => failHere .identifierExpected

/-- Reads the name behind a dot. -/
def memberName : Rule Node := do
  if ← atMark "#" then privateName else wordNode

/-- Reads a value where `in` is an operator. -/
def valueAllowingIn : Rule Node :=
  within (fun m => { m with allowsIn := true }) (goal .assignment)

/-- Reads values separated by commas, as one expression. -/
def expression : Rule Node := do
  let p ← here
  let first ← goal .assignment
  if ← atMark "," then
    let others ← many do
      if ← eatMark "," then return some (← goal .assignment)
      return none
    return .sequence p (first :: others)
  return first

/-- Reads an expression in which `in` is an operator. -/
def expressionAllowingIn : Rule Node :=
  within (fun m => { m with allowsIn := true }) expression

/-- Whether the token can only be an operator between operands. -/
def atBinaryOperator : Rule Bool := do
  match ← lexeme with
  | .mark op => return (binaryPrecedence op).isSome
  | .word "instanceof" false => return true
  | .word "in" false => return (← mode).allowsIn
  | _ => return false

/-- Reads the key of a property: a word, a constant, or an expression in brackets. -/
def propertyKey : Rule Node := do
  let t ← current
  match t.lexeme with
  | .text raw value => advance; return .literal t.start (.text raw value)
  | .number raw => advance; return .literal t.start (.number raw)
  | .bigint raw => advance; return .literal t.start (.bigint raw)
  | .word w _ => advance; return .word t.start w
  | .mark "[" =>
    advance
    let first ← valueAllowingIn
    let key ←
      if ← atMark "," then do
        let p := first.pos
        let others ← many do
          if ← eatMark "," then return some (← valueAllowingIn)
          return none
        report p .enumKey
        pure (.sequence p (first :: others))
      else pure first
    expectMark "]"
    return .computedKey t.start key
  | _ => unexpected "identifier, string literal, numeric literal or [ for the computed key"

/-- Steps over one accessibility or readonly modifier of a parameter. -/
def eatParameterModifier : Rule Bool := do
  if ← atWords ["public", "protected", "private", "readonly"] then
    let next ← ahead
    if next.lexeme.isAnyWord || next.lexeme.isMark "\x7b" || next.lexeme.isMark "[" then
      advance
      return true
  return false

end Scratchpad.TypeScript.Grammar
