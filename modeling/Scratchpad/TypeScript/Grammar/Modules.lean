import Scratchpad.TypeScript.Grammar.Statements

/-!
# Imports and exports

What only the top level of a module holds. Words such as `type` and `as` are names here as often as
they are keywords, so what a specifier means is decided by how many words it has.

## Main definitions

* `Grammar.importItem`: an import.
* `Grammar.exportItem`: an export.
-/

namespace Scratchpad.TypeScript.Grammar

open Rule

/-! ### Sources -/

/-- Reads a quoted text. -/
def quotedText : Rule Node := do
  let t ← current
  match t.lexeme with
  | .text raw value => advance; return .literal t.start (.text raw value)
  | _ => unexpected "a string literal"

/-- Reads the attributes of an import, if there are any on the current line. -/
def importAttributes : Rule Node := do
  if !(← afterLine) && ((← eatWord "assert") || (← eatWord "with")) then objectLiteral
  else return .absent

/-- Reads the module that an import or export takes its names from, to the end of the statement. -/
def fromClause : Rule (Node × Node) := do
  expectWord "from"
  let source ← quotedText
  let attributes ← importAttributes
  expectStatementEnd
  return (source, attributes)

/-- Reads the dotted name of a namespace member. -/
def dottedName : Rule Node := do
  let t ← current
  let first ← match t.lexeme with
    | .word w _ =>
      if keywords.contains w then failHere .identifierExpected
      advance
      pure (.identifier t.start w 0)
    | _ => failHere .identifierExpected
  loop first fun name => do
    if ← eatMark "." then return .inl (.member t.start .plain name (← wordNode))
    return .inr name

/-- Reads an import of one name by an equation, from its equals sign on. -/
def importEquals (p : Nat) (name : Node) (isExport isTypeOnly : Bool) : Rule Node := do
  expectMark "="
  let q ← here
  let next ← ahead
  let reference ←
    if (← atWord "require") && next.lexeme.isMark "(" then do
      advance
      advance
      let source ← quotedText
      expectMark ")"
      pure (.externalModule q source)
    else dottedName
  expectStatementEnd
  return .importEquals p isExport isTypeOnly name reference

/-! ### Specifiers -/

/-- One name between the braces of an import or export. -/
structure Specifier where
  pos : Nat
  name : Node
  /-- The other name behind the word `as`, if one has been read. -/
  renamed : Node := .absent
  isTypeOnly : Bool := false
  /-- Whether nothing more belongs to the specifier. -/
  isFinished : Bool := false

/-- Reads the name of an export: a word or a quoted text. -/
def exportName : Rule Node := do
  let t ← current
  match t.lexeme with
  | .text raw value => advance; return .literal t.start (.text raw value)
  | .word w _ => advance; return .identifier t.start w 0
  | _ => unexpected "identifier or string"

/-- Reads a name between braces with the word `type` in front of it, where that word is no name. -/
def specifier (inTypeOnly : Bool) : Rule Specifier := do
  let p ← here
  let first ← exportName
  match first with
  | .identifier _ "type" _ =>
    unless (← lexeme).isAnyWord do return { pos := p, name := first }
    let marked : Rule Unit := do if inTypeOnly then report p .typeModifierTwice
    let second ← declaredName
    match second with
    | .identifier _ "as" _ =>
      unless (← lexeme).isAnyWord do
        marked
        return { pos := p, name := second, isTypeOnly := true, isFinished := true }
      let third ← declaredName
      match third with
      | .identifier _ "as" _ =>
        unless (← lexeme).isAnyWord do
          return { pos := p, name := first, renamed := third, isFinished := true }
        let fourth ← declaredName
        marked
        return { pos := p, name := second, renamed := fourth, isTypeOnly := true, isFinished := true }
      | _ => return { pos := p, name := first, renamed := third, isFinished := true }
    | _ =>
      marked
      return { pos := p, name := second, isTypeOnly := true }
  | _ => return { pos := p, name := first }

/-- The same name as one that stands for no variable. -/
def asWord : Node → Node
  | .identifier p w _ => .word p w
  | n => n

/-- Reads one name that is imported. -/
def importSpecifier (inTypeOnly : Bool) : Rule Node := do
  let s ← specifier inTypeOnly
  if s.isFinished then
    if s.renamed.isAbsent then return .importNamed s.pos s.isTypeOnly s.name .absent
    return .importNamed s.pos s.isTypeOnly s.renamed (asWord s.name)
  if ← eatWord "as" then
    let name ← bindingIdentifier false
    return .importNamed s.pos s.isTypeOnly name (asWord s.name)
  match s.name with
  | .identifier p w _ =>
    unless isName (← mode) (.word w false) do fail p .reservedWordInImport
    return .importNamed s.pos s.isTypeOnly s.name .absent
  | .literal p (.text _ value) => fail p (.importBindingIsText value)
  | _ => return .importNamed s.pos s.isTypeOnly s.name .absent

/-- Reads one name that is exported. -/
def exportSpecifier (inTypeOnly : Bool) : Rule Node := do
  let s ← specifier inTypeOnly
  let exported ←
    if s.isFinished then pure s.renamed
    else if ← eatWord "as" then exportName
    else pure .absent
  return .exportSpecifier s.pos s.isTypeOnly s.name (asWord exported)

/-- Reads specifiers in braces. -/
def specifiers (one : Rule Node) : Rule (List Node) := do
  expectMark "\x7b"
  let isEnd : Rule Bool := do return (← atEnd) || (← atMark "\x7d")
  let list ← delimited isEnd one
  expectMark "\x7d"
  return list

/-! ### Imports -/

/-- What an import begins with. -/
inductive ImportHead where
  /-- An import by an equation. -/
  | equation (name : Node) (isTypeOnly : Bool)
  /-- A default import. -/
  | binding (name : Node) (isTypeOnly : Bool)
  /-- The word `type` in front of specifiers. -/
  | typeOnly
  /-- Nothing before the specifiers. -/
  | plain

/-- Reads what an import begins with. -/
def importHead : Rule ImportHead := do
  unless ← atName do return .plain
  let first ← bindingIdentifier false
  let (name, isTypeOnly, ends) ← match first with
    | .identifier _ "type" _ => do
      if ← atMarks ["\x7b", "*"] then pure (first, true, true)
      else if ← atName then
        let next ← ahead
        if !(← atWord "from") || next.lexeme.isWord "from" then
          pure (← bindingIdentifier false, true, false)
        else if next.lexeme.isMark "=" then pure (← declaredName, true, false)
        else pure (first, false, false)
      else pure (first, false, false)
    | _ => pure (first, false, false)
  if ends then return .typeOnly
  if ← atMark "=" then return .equation name isTypeOnly
  unless ← atWord "from" do expectMark ","
  return .binding name isTypeOnly

/-- Reads an import. -/
def importItem : Rule Node := do
  let p ← here
  advance
  if let .text .. ← lexeme then
    let source ← quotedText
    let attributes ← importAttributes
    expectStatementEnd
    return .importDeclaration p false [] source attributes
  let head ← importHead
  let (isTypeOnly, default) ← match head with
    | .equation name isTypeOnly => return ← importEquals p name false isTypeOnly
    | .binding name isTypeOnly => pure (isTypeOnly, [Node.importDefault name.pos name])
    | .typeOnly => pure (true, [])
    | .plain => pure (false, [])
  let q ← here
  let others ←
    if ← eatMark "*" then do
      expectWord "as"
      pure [Node.importAll q (← bindingIdentifier false)]
    else if ← atMark "\x7b" then specifiers (importSpecifier isTypeOnly)
    else pure []
  let (source, attributes) ← fromClause
  return .importDeclaration p isTypeOnly (default ++ others) source attributes

/-! ### Exports -/

/-- Reads what is exported by default. -/
def exportDefault (p : Nat) (ds : List Node) : Rule Node := do
  let q ← here
  let own ← decorators
  unless own.isEmpty || ds.isEmpty do fail q .decoratorBeforeAndAfterExport
  let ds := if own.isEmpty then ds else own
  let t ← current
  let next ← ahead
  match t.lexeme with
  | .word "abstract" false =>
    if next.lexeme.isWord "class" && !next.startsLine then
      advance
      return .exportDefault p (← classLike t.start true ds false)
  | .word "interface" false =>
    advance
    return .exportDefault p (← interfaceDeclaration t.start)
  | .word "class" false => return .exportDefault p (← classLike t.start false ds false)
  | .word "async" false =>
    if next.lexeme.isWord "function" && !next.startsLine then
      advance
      return .exportDefault p (← functionLike t.start true false false)
  | .word "function" false => return .exportDefault p (← functionLike t.start false false false)
  | _ => pure ()
  let value ← valueAllowingIn
  expectStatementEnd
  return .exportDefaultExpression p value

/-- Reads an exported list of names, or everything of another module. -/
def exportList (p : Nat) (isTypeOnly : Bool) : Rule Node := do
  let q ← here
  if ← eatMark "*" then
    if ← eatWord "as" then
      let name ← exportName
      let (source, attributes) ← fromClause
      return .exportNamed p isTypeOnly [.exportAllAs q (asWord name)] source attributes
    let (source, attributes) ← fromClause
    return .exportAll p isTypeOnly source attributes
  let list ← specifiers (exportSpecifier isTypeOnly)
  if ← atWord "from" then
    let (source, attributes) ← fromClause
    return .exportNamed p isTypeOnly list source attributes
  for s in list do
    match s with
    | .exportSpecifier _ _ (.identifier r w _) _ =>
      if isReservedWord w then report r .reservedWordInExport
    | .exportSpecifier _ _ (.literal r _) _ => report r .exportBindingIsText
    | _ => pure ()
  let _ ← eatStatementEnd
  return .exportNamed p isTypeOnly list .absent .absent

/-- Reads an exported declaration that code has, if there is one. -/
def exportedDeclaration (ds : List Node) : Rule (Option Node) := do
  let t ← current
  let next ← ahead
  match t.lexeme with
  | .word "class" false => return some (← classLike t.start false ds true)
  | .word "async" false =>
    if next.lexeme.isWord "function" && !next.startsLine then
      advance
      return some (← functionLike t.start true false true)
    return none
  | .word "function" false => return some (← functionLike t.start false false true)
  | .word "const" false =>
    if next.lexeme.isWord "enum" then
      advance
      advance
      return some (← enumDeclaration t.start true)
    return some (← variableDeclaration false)
  | .word "var" false => return some (← variableDeclaration false)
  | .word "let" false => if followsLet next then return some (← variableDeclaration false) else return none
  | _ => return none

/-- Reads an exported declaration that begins with a word for types, if there is one. -/
def exportedTypeDeclaration (ds : List Node) : Rule (Option Node) := do
  let q ← here
  if ← eatWord "declare" then
    if let some d ← ambientDeclaration q ds then return some d
  match ← lexeme with
  | .word w _ => attempt (wordDeclaration q ds w true)
  | _ => return none

/-- Reads an export. The decorators in front of it belong to an exported class. -/
def exportItem (ds : List Node) : Rule Node := do
  let p ← here
  advance
  failAtEnd
  if let some d ← exportedTypeDeclaration ds then return .exportDeclaration p d
  if ← eatWord "import" then
    let next ← ahead
    let isTypeOnly := (← atWord "type") && next.lexeme.isAnyWord
    if isTypeOnly then advance
    return ← importEquals p (← declaredName) true isTypeOnly
  if ← eatMark "=" then
    let value ← expression
    expectStatementEnd
    return .exportAssignment p value
  if ← eatWord "as" then
    expectWord "namespace"
    let name ← declaredName
    expectStatementEnd
    return .exportNamespace p (asWord name)
  if ← eatWord "type" then return ← exportList p true
  if ← eatWord "default" then return ← exportDefault p ds
  let q ← here
  let own ← decorators
  unless own.isEmpty || ds.isEmpty do fail q .decoratorBeforeAndAfterExport
  if let some d ← exportedDeclaration (if own.isEmpty then ds else own) then
    return .exportDeclaration p d
  exportList p false

/-- Reads an import or export. -/
def moduleItem (ds : List Node) : Rule Node := do
  if ← atWord "import" then importItem else exportItem ds

end Scratchpad.TypeScript.Grammar
