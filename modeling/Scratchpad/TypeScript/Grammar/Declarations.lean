import Scratchpad.TypeScript.Grammar.Classes
import Scratchpad.TypeScript.Grammar.Variables

/-!
# Declarations of types, enumerations and namespaces

Most of these declarations begin with a word that is also a fine name for a variable, so each is read
only where the words behind it leave no other choice.

## Main definitions

* `Grammar.interfaceDeclaration`, `Grammar.typeAlias`, `Grammar.enumDeclaration`,
  `Grammar.namespaceDeclaration`: the declarations from behind their first word.
* `Grammar.wordDeclaration`: a declaration that begins with a given word.
* `Grammar.ambientDeclaration`: what follows the word `declare`.
-/

namespace Scratchpad.TypeScript.Grammar

open Rule

/-- Names that no interface may have. -/
def isReservedInterfaceName (w : String) : Bool :=
  ["string", "null", "number", "object", "any", "unknown", "boolean", "bigint", "symbol", "void",
    "never", "intrinsic"].contains w

/-- Reads any word as the name of a variable. -/
def declaredName : Rule Node := do
  let (p, w) ← anyWord
  return .identifier p w 0

/-- Reads an interface from its name on. -/
def interfaceDeclaration (p : Nat) : Rule Node := do
  let (q, w) ← anyWord
  if isReservedInterfaceName w then report q .reservedTypeName
  let typeParams ← optionalTypeParameters true false
  let bases ← if ← eatWord "extends" then heritage else pure []
  if ← atWord "extends" then
    report (← here) .secondExtends
    loop () fun _ => do
      if (← atEnd) || (← atMark "\x7b") then return .inr ()
      advance
      return .inl ()
  let members ← typeMembers
  return .interfaceDeclaration p (.identifier q w 0) (typeParams ++ bases ++ members)

/-- Reads a type alias from its name on. -/
def typeAlias (p : Nat) : Rule Node := do
  let name ← declaredName
  let typeParams ← optionalTypeParameters true false
  expectMark "="
  let type ← freeType
  expectStatementEnd
  return .typeAlias p name (typeParams ++ [type])

/-- Reads one member of an enumeration. -/
def enumMember : Rule Node := do
  let t ← current
  let key ← match t.lexeme with
    | .text raw value => advance; pure (.literal t.start (.text raw value))
    | .number raw =>
      advance
      report t.start .enumNumberKey
      pure (.literal t.start (.text ("\"" ++ raw ++ "\"") raw))
    | .mark "[" =>
      advance
      let _ ← expression
      report t.start .enumKey
      expectMark "]"
      pure (.word t.start "")
    | _ => wordNode
  if ← eatMark "=" then return .enumMember t.start key (← goal .assignment)
  unless ← atMarks [",", "\x7d"] do
    report (← here) .separatorExpected
    advance
  return .enumMember t.start key .absent

/-- Reads an enumeration from its name on. -/
def enumDeclaration (p : Nat) (isConst : Bool) : Rule Node := do
  let name ← declaredName
  expectMark "\x7b"
  let members ← delimited (atMark "\x7d") enumMember
  expectMark "\x7d"
  return .enumDeclaration p isConst name members

/-- Reads the body of a namespace. -/
def namespaceBody : Rule Node := do
  let p ← here
  expectMark "\x7b"
  return .namespaceBody p (← within (fun m => { m with isTopLevel := true }) (statements false true true))

/-- Reads a namespace from its name on. A dotted name nests one namespace in another. -/
def namespaceDeclaration (p : Nat) : Rule Node := do
  let outer ← declaredName
  let inner ← many do
    if ← eatMark "." then return some (← declaredName)
    return none
  let body ← namespaceBody
  let nested := inner.foldr (fun name body => .namespaceDeclaration name.pos name body) body
  return .namespaceDeclaration p outer nested

/-- Reads the declaration of a module by its quoted name, or of the global scope. -/
def externalNamespace (p : Nat) : Rule Node := do
  let t ← current
  let name ← match t.lexeme with
    | .text raw value => advance; pure (.literal t.start (.text raw value))
    | .word "global" false => wordNode
    | _ => unexpected "global or a string literal"
  if ← atMark "\x7b" then return .namespaceDeclaration p name (← namespaceBody)
  expectStatementEnd
  return .namespaceDeclaration p name .absent

/-- Reads a declaration that begins with a given word. Where `isAhead` holds the word is still to be
stepped over, and otherwise it has been read already as a name, and what follows decides. -/
def wordDeclaration (p : Nat) (ds : List Node) (w : String) (isAhead : Bool) : Rule (Option Node) := do
  let onLine := !(← afterLine)
  let step : Rule Unit := if isAhead then advance else pure ()
  match w with
  | "abstract" =>
    if isAhead || (onLine && (← atWord "class")) then
      step
      return some (← classLike p true ds true)
    return none
  | "enum" =>
    if isAhead || (← atName) then
      step
      return some (← enumDeclaration p false)
    return none
  | "interface" =>
    if isAhead || (← atName) then
      step
      return some (← interfaceDeclaration p)
    return none
  | "module" =>
    unless onLine do return none
    step
    match ← lexeme with
    | .text .. => return some (← externalNamespace p)
    | _ =>
      if isAhead || (← atName) then return some (← namespaceDeclaration p)
      return none
  | "namespace" =>
    if isAhead || (← atName) then
      step
      return some (← namespaceDeclaration p)
    return none
  | "type" =>
    if isAhead || (onLine && (← atName)) then
      step
      return some (← typeAlias p)
    return none
  | _ => return none

/-- Reads what follows the word `declare`, which stands at `p`. -/
def ambientDeclaration (p : Nat) (ds : List Node) : Rule (Option Node) :=
  within (fun m => { m with inAmbient := true }) do
    let t ← current
    let next ← ahead
    match t.lexeme with
    | .word "function" false => return some (.ambient p (← functionLike p false false true))
    | .word "class" false => return some (.ambient p (← classLike p false ds true))
    | .word "const" false =>
      if next.lexeme.isWord "enum" then
        advance
        advance
        return some (.ambient p (← enumDeclaration p true))
      return some (.ambient p (← variableDeclaration false))
    | .word "var" false | .word "let" false => return some (.ambient p (← variableDeclaration false))
    | .word "global" false => return some (.ambient p (← externalNamespace p))
    | .word w _ => return (← wordDeclaration p ds w true).map (.ambient p)
    | _ => return none

end Scratchpad.TypeScript.Grammar
