import Scratchpad.TypeScript.Grammar.Functions

/-!
# Classes

## Main definitions

* `Grammar.classLike`: a class from its keyword on.
* `Grammar.classMember`: one member of a class.
-/

namespace Scratchpad.TypeScript.Grammar

open Rule

/-- What has been read of a member before its key. -/
structure MemberHead where
  start : Nat
  decorators : List Node
  modifiers : Modifiers
  staticPos : Option Nat
  declarePos : Option Nat
  /-- Where the last of the words `abstract`, `readonly`, `override` and `static` stands. -/
  modifierPos : Option Nat

/-- Whether a method goes on here. -/
def atMethod : Rule Bool := atMarks ["(", "<"]

/-- Whether a field goes on or ends here. Only with `mayEndLine` does a line end count. -/
def atField (mayEndLine : Bool) : Rule Bool := do
  if ← atMarks ["!", ":", "=", "\x7d", ";"] then return true
  if mayEndLine then atStatementEnd else return false

/-- Whether a key is the name of the constructor. -/
def isConstructorKey : Node → Bool
  | .word _ "constructor" | .literal _ (.text _ "constructor") => true
  | _ => false

/-- Reads the key of a class member. -/
def memberKey : Rule Node := do
  if ← atMark "#" then
    let n ← privateName
    if let .privateName p "constructor" := n then report p .privateConstructorName
    return n
  propertyKey

/-- Finishes a method whose key has been read. -/
def finishMethod (h : MemberHead) (kind : MethodKind) (key : Node) (traits : Traits)
    (check : List Node → Rule Unit) : Rule Node := do
  let f ← within (fun m => { m with inField := false })
    (signatureAndBody h.start traits .absent parameters check)
  let hasBody := match f with
    | .function _ _ _ _ _ body => !body.isAbsent
    | _ => false
  match key with
  | .privateName .. => if h.modifiers.hasAccess then report h.start .accessOnPrivateName
  | _ => if h.modifiers.isAbstract && hasBody then report h.start .abstractWithBody
  return .method h.start kind h.modifiers h.decorators key f

/-- Finishes a method with any parameters. -/
def finishAnyMethod (h : MemberHead) (key : Node) (traits : Traits) : Rule Node :=
  finishMethod h .method key traits fun _ => pure ()

/-- Finishes a field whose key has been read. -/
def finishField (h : MemberHead) (key : Node) : Rule Node := do
  if isConstructorKey key then fail key.pos .propertyNamedConstructor
  if let .privateName p _ := key then
    if h.modifiers.isDeclare || h.modifiers.isAbstract then report p .declareOnPrivateName
    if h.modifiers.hasAccess then report h.start .accessOnPrivateName
  unless h.modifiers.isOptional do let _ ← eatMark "!"
  let types ← colonType
  within (fun m => { m with allowsIn := true, inField := true, colonEnds := false }) do
    let value ← if ← eatMark "=" then goal .assignment else pure .absent
    if h.modifiers.isAbstract && !value.isAbsent then report h.start .abstractInitializer
    expectStatementEnd
    return .field h.start h.modifiers h.decorators key types value

/-- Reads an accessibility modifier. -/
def accessModifier : Rule Bool := do
  let p ← here
  match ← modifier ["public", "protected", "private", "in", "out"] with
  | none => return false
  | some w =>
    if w == "in" || w == "out" then
      report p (.modifierNotHere w)
      return false
    return true

/-- Reads the words `abstract`, `readonly`, `override` and `static` in front of a member. -/
def memberModifiers (hasBase : Bool) (head : MemberHead) : Rule MemberHead :=
  loop head fun h => do
    let p ← here
    let m := h.modifiers
    -- a static block is no member with a modifier
    if (← atWord "static") && (← ahead).lexeme.isMark "\x7b" then return .inr h
    match ← modifier ["abstract", "readonly", "override", "static"] with
    | none => return .inr h
    | some w =>
      let h := { h with modifierPos := some p }
      match w with
      | "abstract" =>
        if m.isAbstract then report p (.modifierTwice w)
        else if m.isOverride then report p (.modifierOrder w "override")
        else if m.isReadonly then report p (.modifierOrder w "readonly")
        return .inl { h with modifiers := { m with isAbstract := true } }
      | "override" =>
        if m.isOverride then report p (.modifierTwice w)
        else if m.isReadonly then report p (.modifierOrder w "readonly")
        else if m.isDeclare then report p (.modifierOrder w "declare")
        else unless hasBase do report p .overrideWithoutBase
        return .inl { h with modifiers := { m with isOverride := true } }
      | "readonly" =>
        if m.isReadonly then report p (.modifierTwice w)
        return .inl { h with modifiers := { m with isReadonly := true } }
      | _ =>
        if m.isOverride then report p (.modifierOrder w "override")
        return .inl { h with modifiers := { m with isStatic := true } }

/-- Reads a static block from its brace on. -/
def staticBlock (p : Nat) : Rule Node := do
  let body ← within (fun m => { m with
      inStaticBlock := true, inField := true, mayBreak := false, mayContinue := false,
      hasNewTarget := true }) do
    withoutLabels (block false)
  return .staticBlock p body

/-- Reads one parameter of a constructor that is not a rest parameter. -/
def constructorParameter (ds : List Node) : Rule Node := do
  let p ← here
  let hasAccess ← accessModifier
  let isOverride := (← modifier ["override"]).isSome
  let isReadonly := (← modifier ["readonly"]).isSome
  let q ← here
  let target ← plainParameter
  if hasAccess || isOverride || isReadonly then
    match target with
    | .identifier .. | .typed _ (.identifier ..) _ | .defaulted _ (.identifier ..) _
    | .defaulted _ (.typed _ (.identifier ..) _) _ => return .parameter p true ds target
    | .defaulted .. => return .parameter p true ds target
    | _ => fail q .optionalPattern
  if ds.isEmpty then return target
  return .parameter p false ds target

/-- Reads the parameters of a constructor up to the closing parenthesis. -/
def constructorParameters : Rule (List Node) :=
  loop (([], none) : List Node × Option Nat) fun (acc, restPos) => do
    if (← atEnd) || (← atMark ")") then return .inr acc.reverse
    if let some p := restPos then report p .restNotLast
    let ds ← decorators
    let p ← here
    if ← eatMark "..." then
      let target ← bindingPattern false
      let types ← colonType
      let param := Node.rest p (target.withTypes types)
      let param := if ds.isEmpty then param else .parameter p false ds param
      unless ← atMark ")" do
        let comma ← here
        expectMark ","
        if ← atMark ")" then report comma .restTrailingComma
      return .inl (param :: acc, some p)
    else
      let param ← constructorParameter ds
      unless ← atMark ")" do expectMark ","
      return .inl (param :: acc, none)

/-- Finishes a constructor whose key has been read. -/
def finishConstructor (h : MemberHead) (key : Node) : Rule Node := do
  if h.modifiers.isOverride then report h.start .overrideMisplaced
  if ← atMark "<" then
    let p ← here
    let _ ← typeParameters false true
    report p .typeParametersOnAccessor
  expectMark "("
  let params ← within (fun m => { m with inParameters := true, inFunction := false }) constructorParameters
  expectMark ")"
  if ← eatMark ":" then
    let type ← freeType
    report type.pos .overrideMisplaced
  let body ← functionBody false false params
  if body.isAbsent then
    for param in params do
      if let .parameter p true _ _ := param then report p .parameterModifier
  if let some p := h.staticPos then report p .overrideMisplaced
  if let some p := h.modifierPos then
    if h.modifiers.isAbstract then report p .overrideMisplaced
  return .method h.start .constructor h.modifiers h.decorators key
    (.function h.start {} .absent params [] body)

/-- Reads a member from its modifiers on. -/
def memberBehindHead (hasBase : Bool) (head : MemberHead) : Rule Node := do
  let h ← memberModifiers hasBase head
  let accessorPos ← here
  let isAccessor ← eatWord "accessor"
  if isAccessor then
    let key := Node.word accessorPos "accessor"
    if ← atMethod then return ← finishAnyMethod h key {}
    if (← atField false) || (← afterLine) then return ← finishField h key
  let h := { h with modifiers := { h.modifiers with isAccessor } }
  if h.modifiers.isStatic && (← atMark "\x7b") then
    if let some p := h.declarePos then report p .staticBlockModifier
    if h.modifiers.hasAccess then report (← here) .staticBlockModifier
    return ← staticBlock h.start
  if (← atWord "static") && (← ahead).lexeme.isMark "\x7b" then
    if let some p := h.modifierPos then report p .staticBlockModifier
    if let some p := h.staticPos then report p .staticBlockModifier
    advance
    return ← staticBlock h.start
  if !h.modifiers.isAbstract && !h.modifiers.isOverride && !h.modifiers.hasAccess then
    if ← atIndexSignature then return .indexSignature h.start (← indexSignature)
  if ← eatMark "*" then
    let key ← memberKey
    if h.modifiers.isReadonly then report h.start (.modifierNotHere "readonly")
    if isConstructorKey key then report h.start .constructorIsGenerator
    return ← finishAnyMethod h key { isGenerator := true }
  let key ← memberKey
  let isOptional ← eatMark "?"
  let h := { h with modifiers := { h.modifiers with isOptional } }
  if ← atMethod then
    if let some p := h.declarePos then report p .declareOnMethod
    if h.modifiers.isReadonly then fail h.start (.modifierNotHere "readonly")
    if isConstructorKey key then return ← finishConstructor h key
    return ← finishAnyMethod h key {}
  let generatorFollows := (← afterLine) && (← atMark "*")
  let accessorWord ← match key with
    | .word _ w => do
      if (w == "get" || w == "set") && !(← atField false) && !generatorFollows then
        -- a line end behind the word ends a field only if no key can follow
        if (← afterLine) && (← atEnd) then pure none else pure (some w)
      else pure none
    | _ => pure none
  if accessorWord.isNone && (← atField true) then return ← finishField h key
  match key with
  | .word _ "async" =>
    if !(← afterLine) then
      let p ← here
      let isOverride := (← modifier ["override"]).isSome
      if isOverride then report p (.modifierOrder "override" "async")
      let isGenerator ← eatMark "*"
      let key ← memberKey
      if isConstructorKey key then fail key.pos .constructorIsAsync
      if h.modifiers.isReadonly then report h.start (.modifierNotHere "readonly")
      let isOptional' ← eatMark "?"
      let h := { h with modifiers := { h.modifiers with
        isOptional := isOptional || isOptional', isOverride := h.modifiers.isOverride || isOverride } }
      return ← finishAnyMethod h key { isAsync := true, isGenerator }
  | _ => pure ()
  if let some w := accessorWord then
    let keyPos := key.pos
    let key ← memberKey
    if h.modifiers.isReadonly then report keyPos (.modifierNotHere "readonly")
    if isConstructorKey key then report keyPos .constructorIsAccessor
    if w == "get" then return ← finishMethod h .getter key {} (checkGetter keyPos)
    return ← finishMethod h .setter key {} (checkSetter keyPos)
  unexpected "* for generator, private key, identifier or async"

/-- Reads one member of a class. A word such as `static` that nothing modifiable follows is the key of the
member. -/
def classMember (hasBase : Bool) : Rule Node := do
  let start ← here
  let ds ← decorators
  let declarePos ← here
  let isDeclare ← eatWord "declare"
  let hasAccess ← accessModifier
  let isDeclare ← if isDeclare then pure true else eatWord "declare"
  let head : MemberHead :=
    { start, decorators := ds, modifiers := { hasAccess }, staticPos := none, declarePos := none,
      modifierPos := none }
  if isDeclare then
    let p := (← get).lastStart
    let key := Node.word p "declare"
    if ← atMethod then return ← finishAnyMethod head key {}
    if (← atField true) || (← atMark "?") then
      let isOptional ← eatMark "?"
      return ← finishField { head with modifiers := { head.modifiers with isOptional } } key
  let head := { head with
    declarePos := if isDeclare then some declarePos else none
    modifiers := { head.modifiers with isDeclare } }
  let staticPos ← here
  if ← eatWord "static" then
    let key := Node.word staticPos "static"
    if ← atMethod then return ← finishAnyMethod head key {}
    if (← atField false) || (← atMark "?") then
      let isOptional ← eatMark "?"
      return ← finishField { head with modifiers := { head.modifiers with isOptional } } key
    return ← memberBehindHead hasBase
      { head with staticPos := some staticPos, modifiers := { head.modifiers with isStatic := true } }
  memberBehindHead hasBase head

/-- Reads the members of a class. At most one constructor has a body. -/
def classMembers (hasBase : Bool) : Rule (List Node) := do
  loop (([], false) : List Node × Bool) fun (acc, hasConstructor) => do
    if (← atEnd) || (← atMark "\x7d") then return .inr acc.reverse
    let p ← here
    if ← eatMark ";" then return .inl (.emptyMember p :: acc, hasConstructor)
    let m ← classMember hasBase
    let isConstructor := match m with
      | .method _ .constructor _ _ _ (.function _ _ _ _ _ body) => !body.isAbsent
      | _ => false
    if isConstructor && hasConstructor && !(← mode).inAmbient then report p .secondConstructor
    return .inl (m :: acc, hasConstructor || isConstructor)

/-- Reads the class that another one extends, and its type arguments. -/
def superclass : Rule (Node × List Node) := do
  let base ← goal .leftHandSide
  match base with
  | .cast _ .instantiated e types => return (e, types)
  | _ =>
    if ← atMark "<" then return (base, ← typeArguments)
    return (base, [])

/-- Reads interfaces that a class implements or another interface extends. -/
def heritage : Rule (List Node) := do
  let isEnd : Rule Bool := do
    return (← atMark "\x7b") || (← atWord "implements") || (← atWord "extends")
  delimited isEnd do
    let (p, w) ← anyWord
    let e ← goal (.accesses (.identifier p w 0) false true)
    match e with
    | .identifier .. | .member .. | .index .. | .cast _ .instantiated .. => pure ()
    | _ => report p .secondImplements
    let types ← if ← atOpeningAngle then typeArguments else pure []
    return .typeParts p types

/-- Where an abstract member stands in a class that is not abstract. -/
def abstractMember? : Node → Option Nat
  | .method p _ m .. | .field p m .. => if m.isAbstract then some p else none
  | _ => none

/-- Names that no class may have. -/
def isReservedClassName (w : String) : Bool :=
  ["any", "unknown", "never", "number", "boolean", "string", "symbol", "object", "void", "bigint",
    "null", "undefined"].contains w

/-- Reads a class from its keyword on. -/
def classLike (p : Nat) (isAbstract : Bool) (ds : List Node) (needsName : Bool) : Rule Node :=
  within (fun m => { m with isStrict := true, inClass := true }) do
    expectWord "class"
    let name ←
      if needsName then bindingIdentifier true
      else if (← atName) && !(← atWord "implements") then bindingIdentifier true
      else pure .absent
    if let .identifier q w _ := name then
      if isReservedClassName w then report q .reservedTypeName
    let typeParams ← optionalTypeParameters true true
    let (base, baseTypes) ←
      if ← eatWord "extends" then do
        let base ← superclass
        if ← eatMark "," then
          for extra in ← heritage do report extra.pos .secondExtends
        pure base
      else pure (.absent, [])
    let q ← here
    if ← eatWord "extends" then
      report q .secondExtends
      let _ ← superclass
    let interfaces ← if ← eatWord "implements" then heritage else pure []
    let q ← here
    if ← eatWord "implements" then
      report q .secondImplements
      let _ ← heritage
    let q ← here
    if ← eatWord "extends" then
      report q .secondExtends
      let _ ← superclass
    expectMark "\x7b"
    let members ← classMembers (!base.isAbsent)
    if ← atEnd then report (← here) (.expected "\x7d" Lexeme.done.shown) else expectMark "\x7d"
    unless isAbstract do
      for m in members do
        if let some q := abstractMember? m then report q .abstractOutsideAbstract
    return .classLike p isAbstract ds name base (typeParams ++ baseTypes ++ interfaces) members

end Scratchpad.TypeScript.Grammar
