import Scratchpad.TypeScript.Grammar.Patterns

/-!
# Declarations of variables

Variables are declared in statements of their own and in the heads of loops. In a loop head a name
needs no initializer, and no semicolon follows.

## Main definitions

* `Grammar.declarator`: one name or pattern with its initializer.
* `Grammar.variableDeclaration`: a declaration with `var`, `let` or `const`.
* `Grammar.usingVariables`: a declaration with `using`.
-/

namespace Scratchpad.TypeScript.Grammar

open Rule

/-- Whether a token may follow the word `let` where that word declares variables. -/
def followsLet (t : Token) : Bool :=
  match t.lexeme with
  | .mark m => m == "\x7b" || m == "["
  | .word w _ => !(keywords.contains w) || w == "this"
  | _ => false

/-- Reads one name or pattern with its initializer. -/
def declarator (kind : VariableKind) (inLoop : Bool) : Rule Node := do
  let p ← here
  let target ← bindingPattern (kind == .lexical || kind == .constant)
  let isPlain := match target with
    | .identifier .. => true
    | _ => false
  if isPlain then let _ ← eatMark "!"
  let types ← colonType
  let target := target.withTypes types
  if inLoop && (← atWords ["in", "of"]) then return .declarator p target .absent
  if ← eatMark "=" then return .declarator p target (← goal .assignment)
  unless (← mode).inAmbient do
    if kind == .constant && !inLoop then report p .initializerMissing
    else unless isPlain do fail p .patternInitializerMissing
  return .declarator p target .absent

/-- Whether the head of a loop goes on behind a declaring keyword without a name. -/
def nameIsMissingInLoop : Rule Bool := do
  if ← atWords ["in", "of"] then
    foresee do
      advance
      let _ ← goal .assignment
      atMark ")"
  else return false

/-- Steps over what stands between a declaration and the end of its statement. -/
def skipToStatementEnd : Rule Unit := do
  report (← here) .separatorExpected
  let _ ← tryCatch expression fun _ => pure .absent
  loop () fun _ => do
    if ← eatStatementEnd then return .inr ()
    advance
    if let .broken flaw ← lexeme then throw flaw
    return .inl ()

/-- Reads a declaration with `var`, `let` or `const`. -/
def variableDeclaration (inLoop : Bool) : Rule Node := do
  let t ← current
  let kind : VariableKind :=
    if t.lexeme.isWord "var" then .var else if t.lexeme.isWord "let" then .lexical else .constant
  advance
  if inLoop && (← nameIsMissingInLoop) then
    report t.stop .loopVariableMissing
    return .variableList t.start kind []
  let declarators ←
    within (fun m => { m with allowsIn := m.allowsIn || kind != .var || !inLoop }) <|
      loop ([] : List Node) fun acc => do
        if ← atMark ";" then
          let s ← get
          report (if acc.isEmpty then s.lastStop else s.lastStart) .trailingComma
          return .inr acc.reverse
        let d ← declarator kind inLoop
        if ← eatMark "," then return .inl (d :: acc)
        return .inr (d :: acc).reverse
  unless inLoop do
    unless ← eatStatementEnd do skipToStatementEnd
  return .variableList t.start kind declarators

/-- Reads a declaration with `using` from that word on. -/
def usingVariables (p : Nat) (isAwait : Bool) : Rule Node := do
  expectWord "using"
  let declarators ← loop ([] : List Node) fun acc => do
    if (← atMark ";") || (← atEnd) then
      report (← get).lastStart .trailingComma
      return .inr acc.reverse
    let d ← declarator .using false
    if ← eatMark "," then return .inl (d :: acc)
    return .inr (d :: acc).reverse
  for d in declarators do
    if let .declarator _ target value := d then
      match target with
      | .identifier .. | .typed _ (.identifier ..) _ => pure ()
      | _ => report p .usingPattern
      if value.isAbsent then report p .usingInitializerMissing
  expectStatementEnd
  return .variableList p (if isAwait then .awaitUsing else .using) declarators

end Scratchpad.TypeScript.Grammar
