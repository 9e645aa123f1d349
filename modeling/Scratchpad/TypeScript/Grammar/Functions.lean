import Scratchpad.TypeScript.Grammar.Types

/-!
# Blocks, functions and objects

A function is read from its type parameters or its opening parenthesis on; what stands before decides
only how its body may suspend. Objects are here as well, since their methods are functions.

## Main definitions

* `Grammar.block`: statements between braces.
* `Grammar.signatureAndBody`: parameters, result type and body of a function.
* `Grammar.functionLike`: a function from its keyword on.
* `Grammar.objectLiteral`: an object.
-/

namespace Scratchpad.TypeScript.Grammar

open Rule

/-- Whether a token is the directive that makes code strict. -/
def isStrictDirective (t : Token) : Bool :=
  match t.lexeme with
  | .text raw value => value == "use strict" && raw.length == 12
  | _ => false

/-- Reads statements up to the closing brace, which is stepped over, or up to the end of the source. -/
def statements (mayDirect isTopLevel isBraced : Bool) : Rule (List Node) := do
  let makesStrict := mayDirect && isStrictDirective (← current)
  let read : Rule (List Node) := many do
    if ← atEnd then
      if isBraced then report (← here) (.expected "\x7d" Lexeme.done.shown)
      return none
    if isBraced && (← atMark "\x7d") then return none
    return some (← goal (.statement true isTopLevel))
  let body ← if makesStrict then within (fun m => { m with isStrict := true }) read else read
  if isBraced then let _ ← eatMark "\x7d"
  return body

/-- Reads a block. -/
def block (mayDirect : Bool) : Rule Node := do
  let p ← here
  expectMark "\x7b"
  return .blockStatement p (← statements mayDirect false true)

/-- Reads with no labels in scope. -/
def withoutLabels {α : Type} (r : Rule α) : Rule α := fun reading s =>
  let before := s.labels
  match r reading { s with labels := [] } with
  | .ok a s => .ok a { s with labels := before }
  | .error e s => .error e { s with labels := before }

/-- The mode inside the body of a function. -/
def Mode.inBody (isAsync isGenerator isArrow : Bool) (m : Mode) : Mode :=
  { m with
    inAsync := isAsync
    inGenerator := isGenerator
    inFunction := true
    inParameters := false
    inField := false
    inStaticBlock := false
    isTopLevel := false
    mayBreak := false
    mayContinue := false
    hasNewTarget := m.hasNewTarget || !isArrow }

/-- Whether parameters are names only. -/
def areSimple (params : List Node) : Bool :=
  params.all fun
    | .identifier .. | .typed _ (.identifier ..) _ | .parameter _ _ _ (.identifier ..)
    | .parameter _ _ _ (.typed _ (.identifier ..) _) => true
    | _ => false

/-- Reads the block of a function. -/
def bodyBlock (isAsync isGenerator isArrow : Bool) (params : List Node) : Rule Node := do
  let m ← mode
  if m.inAmbient && (← atMark "\x7b") then report (← here) .bodyInAmbientContext
  within (Mode.inBody isAsync isGenerator isArrow) do
    withoutLabels do
      let p ← here
      within (fun m => { m with allowsIn := true }) do
        expectMark "\x7b"
        let first ← current
        if isStrictDirective first && !areSimple params then
          report first.start .useStrictWithPatterns
        return .blockStatement p (← statements true false true)

/-- Reads the body of a function that may be left out, for a signature without code. -/
def functionBody (isAsync isGenerator : Bool) (params : List Node) : Rule Node := do
  if !(← atMark "\x7b") && (← eatStatementEnd) then
    for param in params do
      if let .defaulted p _ _ := param then report p .parameterModifier
    return .absent
  bodyBlock isAsync isGenerator false params

/-- Reads the body of an arrow function: a block or a value. -/
def arrowBody (isAsync : Bool) (params : List Node) : Rule Node := do
  if ← atMark "\x7b" then bodyBlock isAsync false true params
  else
    within (Mode.inBody isAsync false true) do
      withoutLabels (goal .assignment)

/-- Whether a parameter is not the type-only parameter `this`. -/
def isOrdinaryParameter : Node → Bool
  | .identifier _ "this" _ | .typed _ (.identifier _ "this" _) _ => false
  | _ => true

/-- Reads parameters, result type and body of a function that begins at `p`. The check sees the
parameters before the closing parenthesis. -/
def signatureAndBody (p : Nat) (traits : Traits) (name : Node) (readParams : Rule (List Node))
    (check : List Node → Rule Unit) : Rule Node := do
  within (fun m => { m with inAsync := traits.isAsync, inGenerator := traits.isGenerator }) do
    let typeParams ← optionalTypeParameters false true
    expectMark "("
    let params ← within (fun m => { m with inParameters := true, inFunction := false, colonEnds := false }) do
      let params ← readParams
      check params
      return params
    expectMark ")"
    let result ← if ← atMark ":" then do pure [← returnType ":"] else pure []
    let body ← functionBody traits.isAsync traits.isGenerator params
    return .function p traits name params (typeParams ++ result) body

/-- Reads parameters, result type and body of a function with any parameters. -/
def anySignatureAndBody (p : Nat) (traits : Traits) (name : Node) : Rule Node :=
  signatureAndBody p traits name parameters fun _ => pure ()

/-- Refuses parameters of a getter. -/
def checkGetter (p : Nat) (params : List Node) : Rule Unit := do
  if params.any isOrdinaryParameter then report p .getterParameters

/-- Refuses other than one parameter of a setter. -/
def checkSetter (p : Nat) (params : List Node) : Rule Unit := do
  unless (params.filter isOrdinaryParameter).length == 1 do report p .setterParameter
  if let .rest q _ :: _ := params then report q .restNotLast

/-- Reads a function from its keyword on. The position is that of the word `async`, if it stands there. -/
def functionLike (p : Nat) (isAsync isExpression needsName : Bool) : Rule Node := do
  expectWord "function"
  let isGenerator ← eatMark "*"
  let traits : Traits := { isAsync, isGenerator }
  let readName : Rule Node := do
    if needsName then bindingIdentifier false
    else if (← atName) || (← atWord "this") then bindingIdentifier false
    else return .absent
  let name ←
    if isExpression then
      within (fun m => { m with inAsync := isAsync, inGenerator := isGenerator }) readName
    else readName
  let f ← within (fun m => { m with inField := false, colonEnds := false })
    (anySignatureAndBody p traits name)
  match f with
  | .function _ _ _ _ _ .absent => if isExpression then unexpected "\x7b" else return f
  | _ => return f

/-! ### Objects -/

/-- Reads one member of an object. -/
def objectMember : Rule Node := do
  let p ← here
  if ← eatMark "..." then return .spread p (← valueAllowingIn)
  if ← eatMark "*" then
    let key ← propertyKey
    let f ← within (fun m => { m with inField := false })
      (anySignatureAndBody p { isGenerator := true } .absent)
    return .propertyMethod p .method key f
  let hasModifier ← eatParameterModifier
  let modifierPos := (← get).lastStart
  let key ← propertyKey
  let t ← current
  let mayFollow := match t.lexeme with
    | .word .. | .text .. | .number .. | .bigint .. => true
    | .mark m => ["(", "[", ":", ",", "?", "=", "*", "<", "#"].contains m ||
        (m == "\x7d" && match key with | .word .. => true | _ => false)
    | _ => false
  unless mayFollow do
    report t.start .separatorExpected
    return .property p key (.literal p .null)
  if ← eatMark ":" then return .property p key (← valueAllowingIn)
  if ← atMarks ["(", "<"] then
    let f ← within (fun m => { m with inField := false }) (anySignatureAndBody p {} .absent)
    return .propertyMethod p .method key f
  let .word q w := key | unexpected "identifier"
  let questionPos ← here
  if ← eatMark "?" then report questionPos .restOptional
  if ← atMarks ["=", ",", "\x7d"] then
    unless isName (← mode) (.word w false) do report q (.reservedInStrictCode w)
    if ← eatMark "=" then
      return .shorthandDefault q (.identifier q w 0) (← valueAllowingIn)
    return .shorthand p (.identifier q w 0)
  match w with
  | "get" | "set" | "async" =>
    if hasModifier then report modifierPos .parameterModifier
    let isGenerator ← if w == "async" then eatMark "*" else pure false
    let key ← propertyKey
    within (fun m => { m with inField := false }) do
      match w with
      | "get" =>
        return .propertyMethod p .getter key
          (← signatureAndBody p {} .absent parameters (checkGetter key.pos))
      | "set" =>
        return .propertyMethod p .setter key
          (← signatureAndBody p {} .absent parameters (checkSetter key.pos))
      | _ =>
        return .propertyMethod p .method key
          (← anySignatureAndBody p { isAsync := true, isGenerator } .absent)
  | _ =>
    unexpected
      "... , *,  (, [, :, , ?, =, an identifier, public, protected, private, readonly, <."

/-- Reads an object. -/
def objectLiteral : Rule Node := do
  let p ← here
  expectMark "\x7b"
  let members ← within (fun m => { m with colonEnds := false }) <| many do
    if ← eatMark "\x7d" then return none
    let m ← objectMember
    unless ← atMark "\x7d" do expectMark ","
    return some m
  return .object p members

end Scratchpad.TypeScript.Grammar
