import Scratchpad.TypeScript.Grammar.Classes
import Scratchpad.TypeScript.Grammar.Targets

/-!
# Expressions

From constants and names up to assignments. Parentheses may turn out to enclose parameters, and an
angle bracket may open type arguments; such places are read on trial first.

## Main definitions

* `Grammar.primary`: what no operator belongs to.
* `Grammar.accesses`: the accesses and calls behind a value.
* `Grammar.operators`: the operators behind an operand.
* `Grammar.assignment`: an assignment or anything that binds more strongly.
-/

namespace Scratchpad.TypeScript.Grammar

open Rule

/-! ### Lists of values -/

/-- Reads a value, spread or not. -/
def spreadable : Rule Node := do
  let p ← here
  if ← eatMark "..." then return .spread p (← goal .assignment)
  goal .assignment

/-- Reads the arguments of a call. -/
def arguments : Rule (List Node) :=
  within (fun m => { m with colonEnds := false, allowsIn := true }) do
    expectMark "("
    let args ← loop ([] : List Node) fun acc => do
      if ← atMark ")" then return .inr acc.reverse
      unless acc.isEmpty do
        expectMark ","
        if ← atMark ")" then return .inr acc.reverse
      return .inl ((← spreadable) :: acc)
    expectMark ")"
    return args

/-- Reads a list of values in brackets. -/
def arrayLiteral : Rule Node := do
  let p ← here
  expectMark "["
  let elements ← within (fun m => { m with colonEnds := false, allowsIn := true }) <| many do
    if ← atMark "]" then return none
    if ← eatMark "," then return some .absent
    let e ← spreadable
    unless ← atMark "]" do expectMark ","
    return some e
  expectMark "]"
  return .array p elements

/-! ### Templates and regular expressions -/

/-- Reads a template from its quotation mark on. -/
def template (isTagged : Bool) : Rule Node := do
  let p ← here
  let (quasis, values) ← templatePieces isTagged
    (within (fun m => { m with colonEnds := false }) expressionAllowingIn)
  return .template p quasis values

/-- Reads a regular expression from its slash on. -/
def regex : Rule Node := do
  let p ← here
  let source := (← get).source
  match scanRegex source p with
  | none =>
    let flaw : Flaw := ⟨p, .unterminatedRegex⟩
    modify fun s => { s with token := { s.token with lexeme := .broken flaw } }
    throw flaw
  | some (flagsStart, stop) =>
    let flags := (source.extract flagsStart stop).toList
    for c in flags do
      unless "dgimsuvy".toList.contains c do note ⟨p, .regexFlagUnknown⟩
    if flags.eraseDups.length != flags.length then note ⟨p, .regexFlagRepeated⟩
    resume stop
    return .literal p (.regex (source.slice p stop))

/-! ### Parentheses and arrow functions -/

/-- A value or pattern between parentheses that may turn out to enclose parameters. -/
structure ParenItem where
  node : Node
  isPattern : Bool := false

/-- Reads one item between parentheses. -/
def parenItem : Rule ParenItem := do
  let start ← here
  modify fun s => { s with arrowStart := some start }
  let hasModifier ← eatParameterModifier
  let next ← ahead
  let m ← mode
  let isNamed := (← atName) || ((← atMark "...") && isName m next.lexeme)
  let item ←
    if isNamed then do
      let p ← here
      if ← eatMark "..." then pure (.spread p (← goal (.operators (← goal .unary) 0)))
      else do
        let e ← goal (.operators (← goal .unary) 0)
        match ← lexeme with
        | .mark op =>
          if isAssignmentOperator op && !e.isArrow then do
            let target ← if op == "=" then asPattern .assigned e else do
              checkTarget e
              pure e
            advance
            pure (.assignment p op target (← goal .assignment))
          else pure e
        | _ => pure e
    else spreadable
  let (item, isOptional) ←
    if ← atMark "?" then do
      let next ← ahead
      if [",", ":", ")", "="].any next.lexeme.isMark then do
        let p ← here
        advance
        match item with
        | .spread .. =>
          report p .restOptional
          pure (item, true)
        | .identifier .. | .array .. | .object .. => pure (item, true)
        | _ => fail item.pos .optionalPattern
      else match item with
        | .spread .. => pure (item, false)
        | _ =>
          advance
          let consequent ← within (fun m => { m with inConditional := true, colonEnds := true })
            (goal .assignment)
          expectMark ":"
          let alternate ← within (fun m => { m with inConditional := true, colonEnds := false })
            (goal .assignment)
          pure (.conditional item.pos item consequent alternate, false)
    else pure (item, false)
  if isOptional || (← atMark ":") then
    let target ← match item with
      | .spread p e => do pure (Node.rest p (← asPattern .bound e))
      | e => asPattern .bound e
    let types ← colonType
    let types := if isOptional && types.isEmpty then [Node.typeParts start []] else types
    let target := match target with
      | .rest p e => .rest p (e.withTypes types)
      | e => e.withTypes types
    let target ←
      if ← eatMark "=" then do pure (.defaulted target.pos target (← goal .assignment))
      else pure target
    if hasModifier then report start .parameterModifier
    return { node := target, isPattern := true }
  if hasModifier then report start .parameterModifier
  return { node := item }

/-- Takes items between parentheses as parameters. -/
def itemsAsParameters (items : List ParenItem) (trailingComma : Option Nat) : Rule (List Node) := do
  let last := items.length - 1
  items.zipIdx.mapM fun (item, i) => do
    if item.isPattern then
      match item.node, trailingComma with
      | .rest p _, comma =>
        if i != last then report p .restNotLast
        if let some q := comma then report q .restTrailingComma
      | _, _ => pure ()
      return item.node
    match item.node with
    | .spread p e =>
      if i != last then report e.pos .restNotLast
      if let .assignment .. := e then report p .restInitializer
      if let some q := trailingComma then report q .restTrailingComma
      return .rest p (← asPattern .bound e)
    | e => asPattern .bound e

/-- Reads items between parentheses, with the place of a comma behind the last. -/
def parenItems : Rule (List ParenItem × Option Nat) := do
  expectMark "("
  let result ← within (fun m => { m with colonEnds := false, allowsIn := true }) <|
    loop (([], none) : List ParenItem × Option Nat) fun (acc, comma) => do
      if ← atMark ")" then return .inr (acc.reverse, comma)
      let item ← parenItem
      if ← atMark ")" then return .inl (item :: acc, none)
      let p ← here
      expectMark ","
      return .inl (item :: acc, some p)
  expectMark ")"
  return result

/-- Reads the body of an arrow function whose parameters and arrow have been read. -/
def finishArrow (p : Nat) (isAsync : Bool) (params types : List Node) : Rule Node := do
  let body ← arrowBody isAsync params
  return .arrow p isAsync params types body

/-- Reads a value in parentheses, an arrow function, or the arguments of a function called `async`. -/
def parenOrArrow (mayBeArrow : Bool) (asyncPos : Option Nat) : Rule Node := do
  let parenPos ← here
  let p := asyncPos.getD parenPos
  let (items, comma) ← parenItems
  let m ← mode
  if m.inConditional && m.colonEnds && (← atMark ":") then
    let arrow ← attempt do
      let result ← returnType ":"
      expectMark "=>"
      let params ← itemsAsParameters items none
      let f ← finishArrow p asyncPos.isSome params [result]
      unless ← atMark ":" do unexpected "fail"
      return some f
    if let some f := arrow then return f
  let result ←
    if !m.colonEnds && (← atMark ":") then
      attempt do
        let result ← returnType ":"
        unless ← atMark "=>" do unexpected "fail"
        return some result
    else pure none
  if items.any (·.isPattern) || result.isSome || (← atMark "=>") then
    if ← afterLine then fail p .arrowLineBreak
    unless mayBeArrow do fail p .arrowNotAllowed
    expectMark "=>"
    let params ← itemsAsParameters items comma
    let f ← finishArrow p asyncPos.isSome params result.toList
    if let .arrow _ _ _ _ (.blockStatement ..) := f then
      if let .mark op ← lexeme then
        if (binaryPrecedence op).isSome then
          report (← here) .separatorExpected
          return ← goal (.operators f 0)
    return f
  for item in items do
    if let .object _ members := item.node then
      for member in members do
        if let .shorthandDefault q _ _ := member then report q .shorthandValue
  if let some q := asyncPos then
    return .call q .plain (.identifier q "async" 0) [] (items.map (·.node))
  match items with
  | [] => fail p .emptyParens
  | [item] =>
    if let .spread _ e := item.node then fail e.pos .spreadInParens
    return .paren p item.node
  | first :: _ =>
    for item in items do
      if let .spread _ e := item.node then fail e.pos .spreadInParens
    return .paren p (.sequence first.node.pos (items.map (·.node)))

/-- Reads an asynchronous arrow function with type parameters, from those on. -/
def genericAsyncArrow (p : Nat) : Rule (Option Node) := do
  let head ← attempt do
    let typeParams ← typeParameters false false
    expectMark "("
    let params ← within (fun m => { m with inAsync := true, inGenerator := false }) parameters
    expectMark ")"
    let result ← if ← atMark ":" then do pure [← returnType ":"] else pure []
    expectMark "=>"
    return some (typeParams ++ result, params)
  match head with
  | none => return none
  | some (types, params) => return some (← finishArrow p true params types)

/-! ### Primary expressions -/

/-- Reads a name, or an arrow function that begins with one. -/
def nameOrArrow (mayBeArrow : Bool) : Rule Node := do
  let start ← here
  let id ← referenceIdentifier
  let m ← mode
  match id with
  | .identifier p name _ =>
    if mayBeArrow && name == "async" && !(← afterLine) && (← atName) then
      let next ← ahead
      if m.inLoopHead && (← atWord "of") && !next.lexeme.isMark "=>" then
        unless m.inAwaitLoopHead do report p .asyncAsLoopTarget
        return id
      if ((← atWord "as") || (← atWord "satisfies")) && !next.lexeme.isMark "=>" then return id
      let param ← bindingIdentifier false
      expectMark "=>"
      return ← finishArrow start true [param] []
    if mayBeArrow && !(← afterLine) && (← atMark "=>") then
      advance
      if isUnbindable name then reportStrict p .evalOrArgumentsInStrictCode
      return ← finishArrow start false [id] []
    return id
  | _ => return id

/-- Reads what no operator, access or call belongs to. -/
def primary : Rule Node := do
  let t ← current
  let p := t.start
  let mayBeArrow := (← get).arrowStart == some p
  match t.lexeme with
  | .word "this" false => advance; return .thisExpression p
  | .word "null" false => advance; return .literal p .null
  | .word "true" false => advance; return .literal p (.boolean true)
  | .word "false" false => advance; return .literal p (.boolean false)
  | .number raw => advance; return .literal p (.number raw)
  | .bigint raw => advance; return .literal p (.bigint raw)
  | .text raw value => advance; return .literal p (.text raw value)
  | .word "function" false => return ← functionLike p false true false
  | .mark "[" => return ← arrayLiteral
  | .mark "\x7b" => return ← objectLiteral
  | .mark "\x60" => return ← template false
  | .mark "(" => return ← parenOrArrow mayBeArrow none
  | .mark "/" | .mark "/=" => return ← regex
  | .mark "#" => return ← privateName
  | .word "async" false =>
    let next ← ahead
    if next.lexeme.isWord "function" && !next.startsLine then
      advance
      return ← functionLike p true true false
    if mayBeArrow && next.lexeme.isMark "<" then
      let f ← attempt do
        advance
        genericAsyncArrow p
      if let some f := f then return f
    if mayBeArrow && next.lexeme.isMark "(" && !next.startsLine then
      advance
      return ← parenOrArrow mayBeArrow (some p)
  | _ => pure ()
  let ds ← decorators
  if ← atWord "class" then return ← classLike p false ds false
  if (← atName) || (← atWord "let") || (← atWord "await") then return ← nameOrArrow mayBeArrow
  failHere .expressionExpected

/-! ### Accesses and calls -/

/-- Whether a value is part of an optional chain that goes on behind it. -/
def isChain : Node → Bool
  | .member _ l _ _ | .index _ l _ _ | .call _ l .. => l != .plain
  | .cast _ .nonNull e _ => isChain e
  | _ => false

/-- The linkage of an access behind a value. -/
def linkageBehind (base : Node) (isOptional : Bool) : Linkage :=
  if isOptional then .optional else if isChain base then .chained else .plain

/-- Whether an expression may begin at the current token. -/
def atExpressionStart : Rule Bool := do
  match ← lexeme with
  | .number .. | .bigint .. | .text .. => return true
  | .word w _ =>
    return !(keywords.contains w) || ["this", "super", "null", "true", "false", "function", "class",
      "new", "typeof", "void", "delete", "import"].contains w
  | .mark m =>
    return ["(", "[", "\x7b", "\x60", "+", "-", "~", "!", "++", "--", "<", "/", "/=", "#", "@"].contains m
  | _ => return false

/-- Whether type arguments that have just been read stand on their own, with no call behind them. -/
def instantiationEnds : Rule Bool := do
  if ← atMarks ["<", ">", "+", "-", "(", "\x60", ">>", ">>>", ">=", ">>=", ">>>="] then return false
  if ← afterLine then return true
  match ← lexeme with
  | .mark op => if (binaryPrecedence op).isSome then return true
  | .word w _ => if w == "in" || w == "instanceof" then return true
  | _ => pure ()
  return !(← atExpressionStart)

/-- Refuses a wrong number of arguments of a dynamic import. -/
def checkImportArguments (base : Node) (args : List Node) : Rule Unit := do
  if let .importCallee p := base then
    if args.isEmpty || args.length > 2 then report p .importArguments
    if args.any (fun | .spread .. => true | _ => false) then report p .importSpread

/-- Whether a value stands for the constructor or methods of the base class. -/
def isSuper : Node → Bool
  | .superExpression _ => true
  | _ => false

/-- Whether a value stands for the function that loads a module. -/
def isImport : Node → Bool
  | .importCallee _ => true
  | _ => false

/-- Reads one access or call behind a value; gives the value itself where nothing more belongs to it. -/
def access (base : Node) (mayCall mayIndex : Bool) : Rule (Node ⊕ Node) := do
  let p := base.pos
  if !(← afterLine) && (← atMark "!") then
    advance
    if isSuper base then failHere (.nonNullOn "super")
    if isImport base then failHere (.nonNullOn "import")
    return .inl (.cast p .nonNull base [])
  if !(isSuper base) && (← atOpeningAngle) then
    let result ← attempt do
      if mayCall then
        if let .identifier q "async" _ := base then
          if let some f ← genericAsyncArrow q then return some (f, true)
      let types ← typeArguments
      if mayCall && (← atMark "(") then
        let args ← arguments
        checkImportArguments base args
        return some (.call p (linkageBehind base false) base types args, false)
      if ← atMark "\x60" then
        return some (.taggedTemplate p base types (← template true), false)
      if !(isImport base) && (← instantiationEnds) then
        return some (.cast p .instantiated base types, false)
      return none
    match result with
    | some (f, true) => return .inr f
    | some (e, false) => return .inl e
    | none => pure ()
  if isImport base && !(← atMarks [".", "("]) then unexpected "\x60.\x60 or \x60(\x60"
  let isOptional ← eatMark "?."
  if isOptional && (isSuper base || isImport base) then failHere .superOutside
  let linkage := linkageBehind base isOptional
  if mayIndex && (← eatMark "[") then
    let key ← within (fun m => { m with colonEnds := false }) expressionAllowingIn
    expectMark "]"
    return .inl (.index p linkage base key)
  if isOptional && (← atOpeningAngle) then
    let types ← typeArguments
    return .inl (.call p linkage base types (← arguments))
  if (isOptional || mayCall) && (← atMark "(") then
    let args ← arguments
    checkImportArguments base args
    return .inl (.call p linkage base [] args)
  if isOptional && (← atMark "\x60") then failHere .optionalTemplate
  if isOptional || (← eatMark ".") then
    return .inl (.member p linkage base (← memberName))
  if isSuper base then
    if mayCall then failHere .superOutside else failHere .superCall
  if ← atMark "\x60" then
    if isChain base then report (← here) .optionalTemplate
    return .inl (.taggedTemplate p base [] (← template true))
  return .inr base

/-- Reads the accesses and calls behind a value. -/
def accesses (base : Node) (mayCall mayIndex : Bool) : Rule Node :=
  loop base fun e => access e mayCall mayIndex

/-- Reads what stands behind the word `import` in an expression. -/
def importExpression (p : Nat) (mayCall : Bool) : Rule Node := do
  if ← eatMark "." then
    modify fun s => { s with hasModuleItem := true }
    let (_, w) ← anyWord
    unless w == "meta" do unexpected "meta"
    let m ← mode
    unless m.isModule || m.mayBeModule do report p .importMetaOutside
    accesses (.importMeta p) mayCall true
  else accesses (.importCallee p) mayCall true

/-- Whether an access chain is optional at its end or just before it. -/
def optionalStart? : Node → Option Nat
  | .member p l object _ | .index p l object _ =>
    if l != .plain then some p
    else match object with
      | .member q l .. | .index q l .. | .call q l .. => if l != .plain then some q else none
      | _ => none
  | .call p l .. => if l != .plain then some p else none
  | _ => none

/-- Reads a value with accesses but no calls behind it, or a construction. -/
def memberOrNew (isNew : Bool) : Rule Node := do
  let p ← here
  if ← eatWord "new" then
    if ← eatMark "." then
      unless ← eatWord "target" do unexpected "target"
      let m ← mode
      unless m.hasNewTarget || m.inParameters || m.inClass do report p .newTargetOutside
      return ← accesses (.newTarget p) false true
    let callee ← goal (.member isNew)
    if callee.isArrow then return callee
    if isNew then
      if let some q := optionalStart? callee then fail q .optionalInNew
    if isImport callee then fail callee.pos .importInNew
    let types ←
      if ← atOpeningAngle then do
        let types ← attempt do
          let types ← typeArguments
          unless ← atMark "(" do unexpected "("
          return some types
        pure (types.getD [])
      else pure []
    if ← atMark "(" then
      let args ← arguments
      return ← accesses (.newExpression p callee types true args) false true
    return .newExpression p callee types false []
  if ← eatWord "super" then return ← accesses (.superExpression p) false true
  if ← eatWord "import" then return ← importExpression p false
  let e ← primary
  if e.isArrow then return e
  accesses e false true

/-- Reads a value with accesses and calls behind it. -/
def leftHandSide : Rule Node := do
  let p ← here
  if ← eatWord "super" then return ← accesses (.superExpression p) true true
  if ← eatWord "import" then return ← importExpression p true
  let callee ← memberOrNew true
  if callee.isArrow then return callee
  if let .newExpression _ _ _ false _ := callee then return callee
  let types ←
    if ← atOpeningAngle then
      attempt do
        let types ← typeArguments
        unless ← atMark "(" do return none
        return some types
    else pure none
  if ← atMark "(" then
    let args ← arguments
    return ← accesses (.call p (linkageBehind callee false) callee (types.getD []) args) true true
  return callee

/-! ### Operators -/

/-- Reads what stands behind the word `await`. -/
def awaitExpression : Rule Node := do
  let p ← here
  advance
  if ← atMark "*" then failHere .awaitStar
  let m ← mode
  if !m.inAsync && ((← atMarks [")", "]", ";", ","]) || (← atStatementEnd)) then
    if m.isModule || m.inStaticBlock then fail p .awaitAsName
    return .identifier p "await" 0
  if m.isTopLevel && !m.inAsync then modify fun s => { s with hasModuleItem := true }
  if m.inFunction && !m.inAsync then report p .awaitInFunction
  if m.inParameters && !m.inFunction then report p .awaitInParameters
  return .awaitExpression p (← goal .unary)

/-- Reads an operand with the operators in front of it and the step operators behind it. -/
def unaryRule : Rule Node := do
  let t ← current
  let p := t.start
  match t.lexeme with
  | .mark "<" =>
    advance
    if (← atWord "const") then
      advance
      expectClosingAngle
      return .cast p .angled (← goal .unary) []
    let type ← freeType
    expectClosingAngle
    return .cast p .angled (← goal .unary) [type]
  | .mark "++" | .mark "--" =>
    advance
    let argument ← goal .unary
    checkTarget argument
    return .update p t.lexeme.shown true argument
  | .mark "+" | .mark "-" | .mark "~" | .mark "!" | .word "delete" false | .word "void" false
  | .word "typeof" false =>
    advance
    let q ← here
    let argument ← tryCatch (goal .unary) fun flaw => do
      note flaw
      return .literal (q - 1) .null
    return .unary p t.lexeme.shown argument
  | .word "await" false => awaitExpression
  | _ =>
    let e ← leftHandSide
    if e.isArrow || (← afterLine) then return e
    if ← atMarks ["++", "--"] then
      checkTarget e
      let op := (← lexeme).shown
      advance
      return .update p op false e
    return e

/-- Reads the first operand of operators. An operator without an operand in front of it is taken as a
flaw, and its operands go on. -/
def firstOperand : Rule Node := do
  tryCatch (goal .unary) fun flaw => do
    if ← atBinaryOperator then
      note ⟨← here, .expressionExpected⟩
      return .literal flaw.pos .null
    throw flaw

/-- The position of a mixture of `??` with another logical operator without parentheses. -/
def mixture? (op : String) (operand : Node) : Option Nat :=
  match operand with
  | .binary p inner _ _ =>
    if (op == "??" && (inner == "||" || inner == "&&")) ||
        ((op == "||" || op == "&&") && inner == "??") then some p else none
  | _ => none

/-- Reads the operators behind an operand that bind more strongly than a level. -/
def operators (left : Node) (level : Nat) : Rule Node :=
  loop left fun left => do
    if level < 7 && !(← afterLine) then
      if ← atWord "as" then
        let next ← ahead
        advance
        if next.lexeme.isWord "const" then
          advance
          return .inl (.cast left.pos .asserted left [])
        return .inl (.cast left.pos .asserted left [← freeType])
      if ← atWord "satisfies" then
        advance
        return .inl (.cast left.pos .checked left [← freeType])
    let t ← current
    let op := t.lexeme.shown
    let precedence ← match t.lexeme with
      | .mark op => pure (binaryPrecedence op)
      | .word "instanceof" false => pure (some 7)
      | .word "in" false => do pure (if (← mode).allowsIn then some 7 else none)
      | _ => pure none
    match precedence with
    | none => return .inr left
    | some strength =>
      if strength ≤ level then return .inr left
      advance
      match left with
      | .unary .. | .awaitExpression .. =>
        if op == "**" then
          let s ← get
          failHere (.unaryBeforePower (s.source.slice left.pos s.lastStart) left.pos s.lastStart)
      | _ => pure ()
      let right ← goal .unary
      let right ← goal (.operators right (if op == "**" then strength - 1 else strength))
      if let some q := mixture? op left then report q .mixedCoalescing
      if op == "??" then
        if let some q := mixture? op right then report q .mixedCoalescing
      return .inl (.binary left.pos op left right)

/-! ### Conditions and assignments -/

/-- Reads a condition or anything that binds more strongly. -/
def conditional : Rule Node := do
  let first ← firstOperand
  if first.isArrow then return first
  let test ← operators first 0
  if ← eatMark "?" then
    let consequent ← within (fun m => { m with inConditional := true, colonEnds := true, allowsIn := true })
      (goal .assignment)
    expectMark ":"
    let alternate ← within (fun m => { m with inConditional := true, colonEnds := false })
      (goal .assignment)
    return .conditional test.pos test consequent alternate
  return test

/-- Reads what stands behind the word `yield`. -/
def yieldExpression : Rule Node := do
  let p ← here
  advance
  let m ← mode
  if m.inParameters && !m.inFunction then fail p .yieldInParameters
  if (← atStatementEnd) || (← atMarks [")", "]", "\x7d", ",", ":"]) || (← atWord "in") ||
      (← atWord "of") then
    return .yieldExpression p false .absent
  let isDelegate ← eatMark "*"
  return .yieldExpression p isDelegate (← goal .assignment)

/-- Reads an assignment that does not begin with type parameters. -/
def plainAssignment : Rule Node := do
  let m ← mode
  if m.inGenerator && (← atWord "yield") then return ← yieldExpression
  let p ← here
  let mayBeArrow := (← atName) || (← atMark "(") || (← atWord "yield") || (← atWord "await")
  modify fun s => { s with arrowStart := if mayBeArrow then some p else none }
  let e ← conditional
  if e.isArrow then return e
  match e with
  | .conditional .. | .binary .. | .unary .. | .update .. => return e
  | _ => pure ()
  match ← lexeme with
  | .mark op =>
    unless isAssignmentOperator op do return e
    let target ←
      if op == "=" then asPattern .assigned e
      else do
        unless e.looksLikeTarget do fail e.pos .assignmentTarget
        checkTarget e
        pure e
    advance
    return .assignment p op target (← goal .assignment)
  | _ => return e

/-- Reads an assignment or anything that binds more strongly. -/
def assignment : Rule Node := do
  if ← atMark "<" then
    let next ← ahead
    if next.lexeme.isAnyWord then
      let f ← within (fun m => { m with colonEnds := false }) <| attempt do
        let p ← here
        let typeParams ← typeParameters false true
        match ← plainAssignment with
        | .arrow _ isAsync params types body =>
          return some (.arrow p isAsync params (typeParams ++ types) body)
        | _ => unexpected "("
      if let some f := f then return f
  plainAssignment

end Scratchpad.TypeScript.Grammar
