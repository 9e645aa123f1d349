import Scratchpad.TypeScript.Grammar.Declarations

/-!
# Statements

A statement is known by its first word or mark; anything else is an expression, which a colon turns
into a label and a few words into the beginning of a declaration.

## Main definitions

* `Grammar.statement`: any statement except one that only modules have.
-/

namespace Scratchpad.TypeScript.Grammar

open Rule

/-- Reads a statement that belongs to another one. -/
def substatement : Rule Node := goal (.statement false false)

/-- Reads the body of a loop. -/
def loopBody : Rule Node :=
  within (fun m => { m with mayBreak := true, mayContinue := true }) substatement

/-- Reads an expression in parentheses. -/
def inParens : Rule Node := do
  expectMark "("
  let e ← expressionAllowingIn
  expectMark ")"
  return e

/-! ### Loops -/

/-- What the head of a loop says. -/
inductive LoopHead where
  | counted (init test update : Node)
  | overKeys (left right : Node)
  | overValues (left right : Node)

/-- Reads the head of a loop from the word behind its variable on. -/
def eachHead (left : Node) : Rule LoopHead := do
  if ← eatWord "of" then return .overValues left (← valueAllowingIn)
  advance
  return .overKeys left (← expressionAllowingIn)

/-- Reads the head of a loop from behind its first semicolon on. -/
def countedHead (init : Node) : Rule LoopHead := do
  let test ←
    if ← eatMark ";" then pure .absent
    else do
      let test ← expressionAllowingIn
      let _ ← eatMark ";"
      pure test
  let update ← if ← atMark ")" then pure .absent else expressionAllowingIn
  return .counted init test update

/-- Refuses declarations that the head of a loop over keys or values cannot hold. -/
def checkLoopDeclarators (declarators : List Node) : Rule Unit := do
  match declarators with
  | [.declarator _ target value] =>
    let m ← mode
    if (m.isStrict || (← atWord "of")) && !value.isAbsent then report target.pos .loopInitializer
    if let .typed .. := target then report target.pos .loopTypeGiven
  | _ =>
    for d in declarators do
      report d.pos .tooManyLoopBindings

/-- Whether an expression is the word `using`, and whether it is awaited. -/
def usingWord? : Node → Option Bool
  | .identifier _ "using" _ => some false
  | .awaitExpression _ (.identifier _ "using" _) => some true
  | _ => none

/-- Reads the head of a loop between its parentheses. -/
def loopHead : Rule LoopHead := do
  if (← atWords ["const", "var"]) || ((← atWord "let") && followsLet (← ahead)) then
    let declaration ← within (fun m => { m with allowsIn := false }) (variableDeclaration true)
    if ← atWords ["of", "in"] then
      if let .variableList _ _ declarators := declaration then checkLoopDeclarators declarators
      return ← eachHead declaration
    expectMark ";"
    return ← countedHead declaration
  if ← eatMark ";" then return ← countedHead .absent
  let p ← here
  let init ← within (fun m => { m with allowsIn := false }) expression
  if let some isAwait := usingWord? init then
    let next ← ahead
    if !(← atWord "of") && (next.lexeme.isWord "of" || next.lexeme.isWord "in") then
      let q ← here
      let name ← bindingIdentifier false
      let kind : VariableKind := if isAwait then .awaitUsing else .using
      if ← atWord "in" then report p .usingPattern
      return ← eachHead (.variableList p kind [.declarator q name .absent])
  if ← atWords ["of", "in"] then
    let overKeys ← atWord "in"
    let target ← goal (.asPattern .assigned init)
    if overKeys then
      match target with
      | .arrayPattern .. | .objectPattern .. | .defaulted .. => report target.pos .patternOverKeys
      | _ => pure ()
    return ← eachHead target
  expectMark ";"
  countedHead init

/-- Reads a loop with a head in parentheses. -/
def forStatement : Rule Node := do
  let p ← here
  advance
  let awaitPos ← here
  let isAwait ← eatWord "await"
  expectMark "("
  let head ← within (fun m => { m with inLoopHead := true, inAwaitLoopHead := isAwait }) loopHead
  expectMark ")"
  let body ← loopBody
  match head with
  | .counted init test update =>
    if isAwait then fail awaitPos .forAwaitOutside
    return .forStatement p init test update body
  | .overKeys left right =>
    if isAwait then fail awaitPos .forAwaitOutside
    return .forInStatement p left right body
  | .overValues left right => return .forOfStatement p isAwait left right body

/-- Reads a loop whose condition comes last. -/
def doWhileStatement : Rule Node := do
  let p ← here
  advance
  let body ← loopBody
  expectWord "while"
  let test ← inParens
  let _ ← eatStatementEnd
  return .doWhileStatement p body test

/-! ### Choices -/

/-- Reads a choice between two statements. -/
def ifStatement : Rule Node := do
  let p ← here
  advance
  let test ← inParens
  let consequent ← substatement
  let alternate ← if ← eatWord "else" then substatement else pure .absent
  return .ifStatement p test consequent alternate

/-- Reads a choice among cases. -/
def switchStatement : Rule Node := do
  let p ← here
  advance
  let discriminant ← inParens
  expectMark "\x7b"
  let cases ← within (fun m => { m with mayBreak := true }) <|
    loop (([], false) : List Node × Bool) fun (acc, hasDefault) => do
      let q ← here
      let isCase ← atWord "case"
      unless isCase || (← atWord "default") do return .inr acc.reverse
      advance
      let test ←
        if isCase then expressionAllowingIn
        else do
          if hasDefault then failHere .secondDefault
          pure .absent
      expectMark ":"
      let body ← many do
        if (← atEnd) || (← atWords ["case", "default"]) || (← atMark "\x7d") then return none
        return some (← goal (.statement true false))
      return .inl (.switchCase q test body :: acc, hasDefault || !isCase)
  expectMark "\x7d"
  return .switchStatement p discriminant cases

/-! ### Jumps -/

/-- Reads a jump out of a loop or to its next round. -/
def jumpStatement : Rule Node := do
  let t ← current
  advance
  let label ←
    if ← eatStatementEnd then pure .absent
    else do
      let label ← referenceIdentifier
      expectStatementEnd
      pure label
  let m ← mode
  let isKnown ← match label with
    | .identifier _ w _ => do pure ((← get).labels.contains w)
    | _ => pure true
  let label := match label with
    | .identifier p w _ => .word p w
    | _ => label
  if t.lexeme.isWord "break" then
    if !isKnown then report t.start .breakLabelUnknown
    else unless m.mayBreak do report t.start .breakOutside
    return .breakStatement t.start label
  if !m.mayContinue then report t.start .continueOutside
  else unless isKnown do report t.start .continueLabelUnknown
  return .continueStatement t.start label

/-- Reads a return. -/
def returnStatement : Rule Node := do
  let p ← here
  advance
  let argument ← if ← atStatementEnd then pure .absent else expressionAllowingIn
  expectStatementEnd
  unless (← mode).inFunction do report p .returnOutside
  return .returnStatement p argument

/-- Reads a throw. Its value begins on the same line. -/
def throwStatement : Rule Node := do
  let p ← here
  advance
  if ← afterLine then failHere .lineBreakInThrow
  let argument ← expressionAllowingIn
  expectStatementEnd
  return .throwStatement p argument

/-! ### Guarded blocks -/

/-- Reads the handler of a guarded block, if there is one. -/
def catchClause : Rule Node := do
  let p ← here
  unless ← eatWord "catch" do return .absent
  let param ←
    if ← eatMark "(" then do
      let target ← bindingPattern false
      let types ← colonType
      expectMark ")"
      pure (target.withTypes types)
    else pure .absent
  return .catchClause p param (← block false)

/-- Reads the last part of a guarded block, if there is one. -/
def finallyBlock : Rule Node := do
  if ← eatWord "finally" then block false else return .absent

/-- Reads a guarded block with what handles its failures. -/
def tryStatement : Rule Node := do
  let p ← here
  advance
  let body ← block false
  let q ← here
  let handler ← catchClause
  let finalizer ← finallyBlock
  if handler.isAbsent && finalizer.isAbsent then report q .separatorExpected
  return .tryStatement p body handler finalizer

/-- Reads a handler without a guarded block in front of it. -/
def strayHandler : Rule Node := do
  let p ← here
  report p .separatorExpected
  let parts : Rule Unit := do
    let _ ← catchClause
    let _ ← finallyBlock
  tryCatch parts fun _ => pure ()
  return .emptyStatement p

/-! ### Labels and expressions -/

/-- Reads what stands behind a label and its colon. -/
def labeledStatement (p : Nat) (label : String) : Rule Node :=
  within (fun m => { m with mayBreak := true }) do
    let before := (← get).labels
    modify fun s => { s with labels := label :: s.labels }
    let body ←
      if ← atWord "function" then do
        let q ← here
        let f ← functionLike q false false true
        if (← mode).isStrict then report q .labelledFunction
        if let .function _ traits .. := f then
          if traits.isGenerator || traits.isAsync then report q .labelledGenerator
        pure f
      else substatement
    if before.contains label then report p (.duplicateLabel label)
    modify fun s => { s with labels := before }
    return .labeledStatement p (.word p label) body

/-- Reads a declaration that began with a name, if what follows makes it one. -/
def nameDeclaration (p : Nat) (name : String) (ds : List Node) : Rule (Option Node) := do
  match name with
  | "declare" => ambientDeclaration p ds
  | "global" =>
    if ← atMark "\x7b" then
      return some (.ambient p (.namespaceDeclaration p (.word p name) (← namespaceBody)))
    return none
  | _ => wordDeclaration p ds name false

/-- Reads a statement that begins with an expression. -/
def expressionStatement (ds : List Node) : Rule Node := do
  let p ← here
  let e ← expressionAllowingIn
  if let .identifier q name _ := e then
    if ← eatMark ":" then return ← labeledStatement q name
    if name == "interface" && (← afterLine) then
      reportStrict q (.reservedInStrictCode name)
      let _ ← eatStatementEnd
      return .expressionStatement p e
    if let some d ← nameDeclaration q name ds then return d
    if name == "enum" || name == "interface" then reportStrict q (.reservedInStrictCode name)
  if ← eatStatementEnd then return .expressionStatement p e
  if ← atBinaryOperator then
    report (← here) .separatorExpected
    return .expressionStatement p (← goal (.operators e 0))
  failHere (.statementEndExpected p (← get).lastStop)

/-! ### All statements -/

/-- Reads a statement that begins with a keyword or mark of its own, if there is one. -/
def markedStatement (p : Nat) (mayDeclare : Bool) (ds : List Node) : Rule (Option Node) := do
  let t ← current
  let next ← ahead
  let nameFollows ← nameFollowsOnLine
  let refuseDeclaration : Rule Unit := do unless mayDeclare do report t.start .declarationNotAllowed
  match t.lexeme with
  | .mark "\x7b" => return some (← block false)
  | .mark ";" => advance; return some (.emptyStatement p)
  | .word "const" false =>
    if next.lexeme.isWord "enum" then
      advance
      advance
      return some (← enumDeclaration p true)
    if mayDeclare then return some (← variableDeclaration false)
    return none
  | .word "await" false =>
    if mayDeclare && next.lexeme.isWord "using" then
      let third := scanToken (← get).source next.stop
      if isName (← mode) third.lexeme && !third.startsLine then
        if (← mode).isTopLevel then modify fun s => { s with hasModuleItem := true }
        advance
        return some (← usingVariables p true)
    return none
  | .word "break" false | .word "continue" false => return some (← jumpStatement)
  | .word "debugger" false =>
    advance
    expectStatementEnd
    return some (.debuggerStatement p)
  | .word "do" false => return some (← doWhileStatement)
  | .word "for" false => return some (← forStatement)
  | .word "function" false =>
    refuseDeclaration
    return some (← functionLike t.start false false true)
  | .word "class" false =>
    refuseDeclaration
    return some (← classLike p false ds true)
  | .word "if" false => return some (← ifStatement)
  | .word "return" false => return some (← returnStatement)
  | .word "switch" false => return some (← switchStatement)
  | .word "throw" false => return some (← throwStatement)
  | .word "catch" false | .word "finally" false => return some (← strayHandler)
  | .word "try" false => return some (← tryStatement)
  | .word "with" false =>
    report t.start .withStatement
    advance
    let object ← inParens
    return some (.withStatement p object (← substatement))
  | .word "while" false =>
    advance
    let test ← inParens
    return some (.whileStatement p test (← loopBody))
  | .word "var" false => return some (← variableDeclaration false)
  | .word "let" false =>
    if mayDeclare && followsLet next then return some (← variableDeclaration false)
    return none
  | .word "using" false =>
    if mayDeclare && nameFollows then return some (← usingVariables p false)
    return none
  | .word "interface" false =>
    if nameFollows then
      advance
      return some (← interfaceDeclaration t.start)
    return none
  | .word "type" false =>
    if nameFollows then
      advance
      return some (← typeAlias t.start)
    return none
  | .word "enum" false =>
    if nameFollows then
      advance
      return some (← enumDeclaration t.start false)
    return none
  | .word "async" false =>
    if next.lexeme.isWord "function" && !next.startsLine then
      advance
      return some (← functionLike t.start true false true)
    return none
  | _ => return none

/-- Reads a statement that begins behind decorators at `p`. -/
def plainStatement (p : Nat) (mayDeclare : Bool) (ds : List Node) : Rule Node := do
  match ← markedStatement p mayDeclare ds with
  | some s => return s
  | none => expressionStatement ds

/-- Reads an expression that begins with the word `import`, as a statement. -/
def importExpressionStatement : Rule Node := do
  let p ← here
  let e ← expression
  let _ ← eatStatementEnd
  return .expressionStatement p e

/-- Reads a statement. At the top level the given rule reads what begins with `import` or `export`. -/
def statement (mayDeclare isTopLevel : Bool) (moduleItem : List Node → Rule Node) : Rule Node := do
  within (fun m => { m with isTopLevel := m.isTopLevel && isTopLevel, colonEnds := false }) do
    let p ← here
    let ds ← decorators
    if ← atWords ["import", "export"] then
      let next ← ahead
      if (← atWord "import") && (next.lexeme.isMark "(" || next.lexeme.isMark ".") then
        return ← importExpressionStatement
      if isTopLevel then return ← moduleItem ds
      failHere .moduleItemNotAllowed
    plainStatement p mayDeclare ds

end Scratchpad.TypeScript.Grammar
