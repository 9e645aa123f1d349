import Scratchpad.TypeScript.Grammar.Names

/-!
# Patterns and parameters

What stands on the left of a declaration and between the parentheses of a function.

## Main definitions

* `Grammar.bindingPattern`: a name, a list pattern or an object pattern.
* `Grammar.parameters`: the parameters of a function, up to the closing parenthesis.
-/

namespace Scratchpad.TypeScript

/-- A target with type information, or the target itself where there is none. -/
def Node.withTypes (target : Node) (types : List Node) : Node :=
  match types with
  | [] => target
  | _ => .typed target.pos target types

namespace Grammar

open Rule

/-- Reads a pattern or a name that is being declared. -/
def bindingPattern (forbidLet : Bool) : Rule Node := do
  if (← atMark "[") || (← atMark "\x7b") then goal .pattern
  else if (← lexeme).isAnyWord then bindingIdentifier forbidLet
  else unexpected "yield, an identifier, [ or \x7b"

/-- Reads the default behind a pattern, if there is one. -/
def withDefault (target : Node) : Rule Node := do
  if ← eatMark "=" then
    let value ← valueAllowingIn
    if (← mode).inAmbient then report target.pos .parameterModifier
    return .defaulted target.pos target value
  return target

/-- Reads a type annotation, if there is one. -/
def colonType : Rule (List Node) := do
  if ← eatMark ":" then return [← within (fun m => { m with noConditionalTypes := false }) (goal .type)]
  return []

/-- Reads a list pattern. -/
def arrayPattern : Rule Node := do
  let p ← here
  expectMark "["
  let elements ← many do
    if (← atEnd) || (← atMark "]") then return none
    if ← eatMark "," then return some .absent
    let q ← here
    let isRest ← eatMark "..."
    let element ←
      if isRest then do pure (.rest q (← bindingPattern false))
      else withDefault (← bindingPattern false)
    unless ← atMark "]" do
      let comma ← here
      expectMark ","
      if isRest && (← atMark "]") then report comma .restTrailingComma
    return some element
  expectMark "]"
  if (← mode).inAmbient then let _ ← eatMark "?"
  return .arrayPattern p elements

/-- Reads one member of an object pattern. -/
def patternMember : Rule Node := do
  let p ← here
  if ← eatMark "..." then return .rest p (← bindingPattern false)
  let key ← propertyKey
  if ← eatMark ":" then
    return .patternProperty p key (← withDefault (← bindingPattern false))
  match key with
  | .word q w =>
    if ← eatMark "=" then
      return .patternShorthand p (.identifier q w 0) (← valueAllowingIn)
    unless isName (← mode) (.word w false) do report q (.reservedInStrictCode w)
    return .patternShorthand p (.identifier q w 0) .absent
  | _ => unexpected "an identifier"

/-- Reads an object pattern. -/
def objectPattern : Rule Node := do
  let p ← here
  expectMark "\x7b"
  let members ← many do
    if ← eatMark "\x7d" then return none
    let m ← patternMember
    unless ← atMark "\x7d" do
      let comma ← here
      expectMark ","
      if let .rest q _ := m then
        if ← atMark "\x7d" then report comma .restTrailingComma else report q .restNotLast
    return some m
  if (← mode).inAmbient then let _ ← eatMark "?"
  return .objectPattern p members

/-- Reads a pattern that is not a name. -/
def patternRule : Rule Node := do
  if ← atMark "[" then arrayPattern else objectPattern

/-- Reads one parameter that is not a rest parameter, with its annotation and default. -/
def plainParameter : Rule Node := do
  let p ← here
  let hasModifier ← eatParameterModifier
  let target ← bindingPattern false
  let isOptional ← eatMark "?"
  let types ← colonType
  let types := if isOptional && types.isEmpty then [Node.typeParts p []] else types
  let target := target.withTypes types
  let result ←
    if ← eatMark "=" then do
      if isOptional then report target.pos .restOptional
      let value ← goal .assignment
      if (← mode).inAmbient then report target.pos .parameterModifier
      pure (.defaulted target.pos target value)
    else pure target
  if hasModifier then report p .parameterModifier
  return result

/-- Reads decorators. -/
def decorators : Rule (List Node) := many do
  let p ← here
  if ← eatMark "@" then
    if ← eatMark "(" then
      let e ← expressionAllowingIn
      expectMark ")"
      return some (.decorator p (← goal (.accesses e true false)))
    let name ← identifier false false
    return some (.decorator p (← goal (.accesses name true false)))
  return none

/-- Reads the parameters of a function up to the closing parenthesis. -/
def parameters : Rule (List Node) :=
  loop (([], none) : List Node × Option Nat) fun (acc, restPos) => do
    if (← atEnd) || (← atMark ")") then return .inr acc.reverse
    if let some p := restPos then report p .restNotLast
    let ds ← decorators
    let p ← here
    if ← eatMark "..." then
      let target ← bindingPattern false
      let target ←
        if ← eatMark "=" then do
          let value ← goal .assignment
          report target.pos .restInitializer
          pure (.defaulted target.pos target value)
        else pure target
      let types ← colonType
      let q ← here
      if ← eatMark "?" then report q .restOptional
      let param := Node.rest p (target.withTypes types)
      let param := if ds.isEmpty then param else .parameter p false ds param
      unless ← atMark ")" do
        let comma ← here
        expectMark ","
        if ← atMark ")" then report comma .restTrailingComma
      return .inl (param :: acc, some p)
    else
      let param ← plainParameter
      let param := if ds.isEmpty then param else .parameter p false ds param
      unless ← atMark ")" do expectMark ","
      return .inl (param :: acc, none)

end Grammar

end Scratchpad.TypeScript
