import Scratchpad.TypeScript.Grammar.Patterns

/-!
# Types

Types leave no trace in the code that is printed, so what is read of a type is only where it begins
and which values are computed inside it (the keys in brackets of its members).

## Main definitions

* `Grammar.typeRule`: a type.
* `Grammar.typeParameters`, `Grammar.typeArguments`: lists in angle brackets.
* `Grammar.returnType`: what stands behind a parameter list.
* `Grammar.typeMembers`: the members of an interface.
-/

namespace Scratchpad.TypeScript.Grammar

open Rule

/-- Reads one of the given modifiers, if what follows it can be modified. -/
def modifier (allowed : List String) : Rule (Option String) := do
  failAtEnd
  match ← lexeme with
  | .word w false =>
    unless allowed.contains w do return none
    let next ← ahead
    let mayFollow := !next.startsLine && match next.lexeme with
      | .word .. | .text .. | .number .. | .bigint .. => true
      | .mark m => ["[", "\x7b", "*", "...", "#"].contains m
      | _ => false
    if mayFollow then
      advance
      return some w
    return none
  | _ => return none

/-- Reads elements separated by commas up to, and not including, what ends the list. -/
def delimited {α : Type} (isEnd : Rule Bool) (element : Rule α) : Rule (List α) :=
  loop ([] : List α) fun acc => do
    if ← isEnd then return .inr acc.reverse
    let e ← element
    if ← eatMark "," then return .inl (e :: acc)
    if ← isEnd then return .inr (e :: acc).reverse
    expectMark ","
    return .inl (e :: acc)

/-- Steps over a closing angle bracket, which has to be there. -/
def expectClosingAngle : Rule Unit := do
  splitAngle ">"
  expectMark ">"

/-- Reads a type in the scope of a list of its own, where conditional types are allowed. -/
def freeType : Rule Node :=
  within (fun m => { m with noConditionalTypes := false }) (goal .type)

/-- Reads type arguments. -/
def typeArguments : Rule (List Node) := do
  let p ← here
  splitAngle "<"
  expectMark "<"
  let types ← delimited atClosingAngle freeType
  expectClosingAngle
  if types.isEmpty then report p .typeListEmpty
  return types

/-- Reads one type parameter. -/
def typeParameter (allowVariance allowConst : Bool) : Rule Node := do
  let p ← here
  loop ([] : List String) fun seen => do
    let q ← here
    match ← modifier ["public", "private", "protected", "readonly", "abstract", "const", "override",
        "in", "out"] with
    | none => return .inr ()
    | some w =>
      if w == "const" then
        unless allowConst do report q .constModifier
      else if w == "in" || w == "out" then
        if !allowVariance then report q (.modifierNotHere w)
        else if seen.contains w then report q (.modifierTwice w)
        else if w == "in" && seen.contains "out" then report q (.modifierOrder "in" "out")
      else report q (.modifierNotHere w)
      return .inl (w :: seen)
  let _ ← anyWord
  let bound ← if ← eatWord "extends" then do pure [← freeType] else pure []
  let default ← if ← eatMark "=" then do pure [← freeType] else pure []
  return .typeParts p (bound ++ default)

/-- Reads type parameters. -/
def typeParameters (allowVariance allowConst : Bool) : Rule (List Node) := do
  let p ← here
  unless ← atMark "<" do unexpected "< (jsx tag start)"
  advance
  let types ← delimited atClosingAngle (typeParameter allowVariance allowConst)
  expectClosingAngle
  if types.isEmpty then report p .typeListEmpty
  return [.typeParts p types]

/-- Reads type parameters, if there are any. -/
def optionalTypeParameters (allowVariance allowConst : Bool) : Rule (List Node) := do
  if ← atMark "<" then typeParameters allowVariance allowConst else return []

/-- Reads parameters of a signature and the closing parenthesis. -/
def signatureParameters : Rule (List Node) := do
  let params ← parameters
  if params.any (fun | .defaulted .. => true | _ => false) then
    unexpected
      "an identifier, [ for an array pattern, \x7b for an object patter or ... for a rest pattern"
  expectMark ")"
  return params

/-- Reads a type, or a statement about a parameter, behind the given mark. -/
def returnType (introducer : String) : Rule Node := do
  let p ← here
  expectMark introducer
  within (fun m => { m with noConditionalTypes := false }) do
    let next ← ahead
    let asserts := (← atWord "asserts") && isName (← mode) next.lexeme && !next.startsLine
    if asserts then advance
    let next ← ahead
    let states := (← atName) && next.lexeme.isWord "is" && !next.startsLine
    if !asserts && !states then return .typeParts p [← goal .type]
    let _ ← anyWord
    if states then
      advance
      return .typeParts p [← goal .type]
    return .typeParts p []

/-! ### Members of object types -/

/-- Steps over the separator behind a member. -/
def memberEnd : Rule Unit := do
  unless ← eatMark "," do expectStatementEnd

/-- Whether an index signature, and not a computed key, begins at the current bracket. -/
def atIndexSignature : Rule Bool := do
  if ← atMark "[" then
    foresee do
      advance
      if ← atName then
        advance
        atMarks [":", ","]
      else return false
  else return false

/-- Reads an index signature from its bracket on. -/
def indexSignature : Rule (List Node) := do
  expectMark "["
  let (p, _) ← anyWord
  if ← eatMark "," then report p .indexSignatureModifier else expectMark ":"
  let key ← freeType
  expectMark "]"
  let value ← colonType
  memberEnd
  return key :: value

/-- Reads the key of a member of an object type. -/
def typeMemberKey : Rule (List Node) := do
  if ← eatMark "[" then
    let key ← valueAllowingIn
    expectMark "]"
    return [key]
  match ← lexeme with
  | .text .. | .number .. | .bigint .. => advance
  | _ => let _ ← memberName
  return []

/-- Reads the signature of a call, from its type parameters or its parenthesis on. -/
def callSignature : Rule (List Node) := do
  let types ← optionalTypeParameters false true
  expectMark "("
  let params ← signatureParameters
  let result ← if ← atMark ":" then do pure [← returnType ":"] else pure []
  return types ++ params ++ result

/-- Reads an accessor of an object type. -/
def accessorSignature : Rule (Option Node) := do
  let p ← here
  let isGetter ← eatWord "get"
  unless isGetter do expectWord "set"
  let key ← typeMemberKey
  expectMark "("
  if isGetter then
    expectMark ")"
    let result ← colonType
    memberEnd
    return some (.typeParts p (key ++ result))
  else
    let params ← signatureParameters
    if params.isEmpty then failHere .setterParameter
    memberEnd
    return some (.typeParts p (key ++ params))

/-- Reads one member of an object type. -/
def typeMember : Rule Node := do
  let p ← here
  if ← atMarks ["(", "<"] then
    let parts ← callSignature
    memberEnd
    return .typeParts p parts
  let next ← ahead
  if (← atWord "new") && (next.lexeme.isMark "(" || next.lexeme.isMark "<") then
    advance
    let parts ← callSignature
    memberEnd
    return .typeParts p parts
  let isReadonly := (← modifier ["readonly"]).isSome
  if ← atIndexSignature then return .typeParts p (← indexSignature)
  let accessor ← attempt do
    if isReadonly then failHere .overrideMisplaced else accessorSignature
  if let some a := accessor then return a
  let key ← typeMemberKey
  let _ ← eatMark "?"
  if ← atMarks ["(", "<"] then
    let parts ← callSignature
    memberEnd
    return .typeParts p (key ++ parts)
  let type ← colonType
  memberEnd
  return .typeParts p (key ++ type)

/-- Reads members up to the closing brace, which is stepped over. -/
def typeMembers : Rule (List Node) := do
  expectMark "\x7b"
  let members ← many do
    if ← atMark "\x7d" then return none
    return some (← typeMember)
  expectMark "\x7d"
  return members

/-! ### Primary types -/

/-- Reads a dotted name, keywords included. -/
def entityName : Rule Unit := do
  let _ ← anyWord
  loop () fun _ => do
    if ← eatMark "." then
      let _ ← memberName
      return .inl ()
    return .inr ()

/-- Reads type arguments that begin on the current line, if there are any. -/
def optionalTypeArguments : Rule (List Node) := do
  if !(← afterLine) && (← atOpeningAngle) then typeArguments else return []

/-- Reads the type of another module's export, from the word `import` on. -/
def importType : Rule Node := do
  let p ← here
  expectWord "import"
  expectMark "("
  match ← lexeme with
  | .text .. => advance
  | _ =>
    report (← here) .importArguments
    let _ ← goal .type
  let attributes ← if ← eatMark "," then do pure [← goal .assignment] else pure []
  expectMark ")"
  if ← eatMark "." then entityName
  return .typeParts p (attributes ++ (← optionalTypeArguments))

/-- Whether a mapped type, and not a list of members, begins at the current brace. -/
def atMappedType : Rule Bool := foresee do
  advance
  if (← eatMark "+") || (← eatMark "-") then return ← atWord "readonly"
  let _ ← eatWord "readonly"
  unless ← eatMark "[" do return false
  unless ← atName do return false
  advance
  atWord "in"

/-- Reads a mapped type. -/
def mappedType : Rule Node := do
  let p ← here
  expectMark "\x7b"
  if ← atMarks ["+", "-"] then
    advance
    expectWord "readonly"
  else let _ ← eatWord "readonly"
  expectMark "["
  let _ ← anyWord
  expectWord "in"
  let keys ← freeType
  let renamed ← if ← eatWord "as" then do pure [← freeType] else pure []
  expectMark "]"
  if ← atMarks ["+", "-"] then
    advance
    expectMark "?"
  else let _ ← eatMark "?"
  let value ← colonType
  let _ ← eatStatementEnd
  expectMark "\x7d"
  return .typeParts p (keys :: renamed ++ value)

/-- Reads one element of a tuple type, and whether it may be missing. -/
def tupleElement : Rule (Node × Option Bool) := do
  let p ← here
  let isRest ← eatMark "..."
  let labelOptional ← attempt do
    if (← lexeme).isAnyWord then
      advance
      let isOptional ← eatMark "?"
      expectMark ":"
      return some isOptional
    return none
  let type ← freeType
  if isRest then return (.typeParts p [type], none)
  let isOptional ← eatMark "?"
  return (.typeParts p [type], some (isOptional || labelOptional.getD false))

/-- Reads a tuple type. No element that has to be there follows one that may be missing. -/
def tupleType : Rule Node := do
  let p ← here
  expectMark "["
  let elements ← delimited (atMark "]") tupleElement
  expectMark "]"
  let misordered := elements.foldl (fun (seen, bad) (_, isOptional) =>
    match isOptional with
    | some true => (true, bad)
    | some false => (seen, bad || seen)
    | none => (seen, bad)) (false, false)
  if misordered.2 then fail p .tupleOrder
  return .typeParts p (elements.map (·.1))

/-- Reads the pieces of a template from behind its quotation mark, with the given reader between them. -/
def templatePieces (allowsBadEscapes : Bool) (value : Rule Node) : Rule (List String × List Node) := do
  let start ← here
  loop (((← current).start + 1, [], []) : Nat × List String × List Node) fun (i, quasis, values) => do
    let piece := scanTemplatePiece (← get).source i [] none
    if let some q := piece.badEscape then
      unless allowsBadEscapes do throw ⟨q, .badEscape⟩
    match piece.ending with
    | .cutOff => throw ⟨start, .unterminatedTemplate⟩
    | .closed =>
      resume piece.stop
      return .inr ((piece.text :: quasis).reverse, values.reverse)
    | .opened =>
      resume piece.stop
      let v ← value
      let t ← current
      unless t.lexeme.isMark "\x7d" do fail t.start (.expected "\x7d" t.lexeme.shown)
      return .inl (t.start + 1, piece.text :: quasis, v :: values)

/-- Words that name a type of their own. -/
def typeKeywords : List String :=
  ["void", "null", "any", "boolean", "bigint", "never", "number", "object", "string", "symbol",
    "unknown", "undefined", "intrinsic"]

/-- Reads a type that no operator or suffix belongs to. -/
def primaryType : Rule Node := do
  failAtEnd
  let t ← current
  let p := t.start
  match t.lexeme with
  | .text .. | .number .. | .bigint .. => advance; return .typeParts p []
  | .mark "-" =>
    advance
    match ← lexeme with
    | .number .. | .bigint .. => advance; return .typeParts p []
    | _ => unexpected "numeric literal or bigint literal"
  | .mark "\x7b" =>
    if ← atMappedType then mappedType else return .typeParts p (← typeMembers)
  | .mark "[" => tupleType
  | .mark "(" =>
    advance
    let type ← freeType
    expectMark ")"
    return type
  | .mark "\x60" =>
    let (_, types) ← templatePieces false freeType
    return .typeParts p types
  | .word "import" false => importType
  | .word "this" false =>
    advance
    if !(← afterLine) && (← atWord "is") then
      advance
      return .typeParts p [← goal .type]
    return .typeParts p []
  | .word "typeof" false =>
    advance
    if ← atWord "import" then importType
    else
      entityName
      return .typeParts p (← optionalTypeArguments)
  | .word "true" false | .word "false" false => advance; return .typeParts p []
  | .word w _ =>
    let next ← ahead
    if w == "asserts" && next.lexeme.isWord "this" then
      advance
      advance
      if !(← afterLine) && (← eatWord "is") then return .typeParts p [← goal .type]
      return .typeParts p []
    if keywords.contains w && !(["void", "null", "break"].contains w) then
      unexpected "an identifier, void, yield, null, await, break, a string literal, a numeric literal, true, false, \x60, -, import, this, typeof, \x7b, [, ("
    if typeKeywords.contains w && !(next.lexeme.isMark ".") then
      advance
      return .typeParts p []
    let hasModifier ← eatParameterModifier
    entityName
    let types ← optionalTypeArguments
    if hasModifier then report p .parameterModifier
    return .typeParts p types
  | _ =>
    unexpected "an identifier, void, yield, null, await, break, a string literal, a numeric literal, true, false, \x60, -, import, this, typeof, \x7b, [, ("

/-- Reads a primary type with the brackets behind it. -/
def arrayType : Rule Node := do
  let first ← primaryType
  loop first fun type => do
    if !(← afterLine) && (← atMark "[") then
      advance
      if ← eatMark "]" then return .inl type
      let key ← freeType
      expectMark "]"
      return .inl (.typeParts type.pos [type, key])
    return .inr type

/-- Reads a type with the words in front of it. -/
def operatorType : Rule Node := do
  failAtEnd
  if ← atWords ["keyof", "unique"] then
    advance
    goal .operatorType
  else if ← atWord "infer" then
    let p ← here
    advance
    let _ ← anyWord
    let bound ← attempt do
      expectWord "extends"
      let type ← within (fun m => { m with noConditionalTypes := true }) (goal .type)
      if !(← mode).noConditionalTypes && (← atMark "?") then return none
      return some type
    return .typeParts p bound.toList
  else if ← atWord "readonly" then
    advance
    goal .operatorType
  else arrayType

/-- Reads operands of one operator between types. -/
def joinedTypes (operator : String) (operand : Rule Node) : Rule Node := do
  let p ← here
  let _ ← eatMark operator
  let first ← operand
  let others ← many do
    if ← eatMark operator then return some (← operand)
    return none
  match others with
  | [] => return first
  | _ => return .typeParts p (first :: others)

/-- Whether a function type, and not a type in parentheses, begins at the current parenthesis. -/
def atFunctionType : Rule Bool := do
  if ← atMark "<" then return true
  unless ← atMark "(" do return false
  foresee do
    advance
    if ← atMarks [")", "..."] then return true
    let _ ← eatParameterModifier
    if (← lexeme).isAnyWord then advance
    else if (← atMark "\x7b") || (← atMark "[") then let _ ← bindingPattern false
    else return false
    if ← atMarks [":", ",", "?", "="] then return true
    if ← eatMark ")" then atMark "=>" else return false

/-- Reads a type without a condition. -/
def plainType : Rule Node := do
  let p ← here
  let next ← ahead
  if ← atFunctionType then
    let types ← optionalTypeParameters false true
    expectMark "("
    let params ← signatureParameters
    return .typeParts p (types ++ params ++ [← returnType "=>"])
  if ((← atWord "abstract") && next.lexeme.isWord "new") || (← atWord "new") then
    let _ ← eatWord "abstract"
    expectWord "new"
    let types ← optionalTypeParameters false true
    expectMark "("
    let params ← signatureParameters
    return .typeParts p (types ++ params ++ [← returnType "=>"])
  joinedTypes "|" (joinedTypes "&" (goal .operatorType))

/-- Reads a type. -/
def typeRule : Rule Node := do
  let type ← plainType
  if (← mode).noConditionalTypes || (← afterLine) then return type
  if ← eatWord "extends" then
    let bound ← within (fun m => { m with noConditionalTypes := true }) plainType
    expectMark "?"
    let yes ← freeType
    expectMark ":"
    let no ← freeType
    return .typeParts type.pos [type, bound, yes, no]
  return type

end Scratchpad.TypeScript.Grammar
