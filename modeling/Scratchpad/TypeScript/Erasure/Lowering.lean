import Scratchpad.TypeScript.Erasure.Enums

/-!
# Lowering declarations

Enumerations, namespaces and constructor parameters that are fields leave code behind, but not the code
that was written. An enumeration becomes a variable that a function fills, a namespace a call of a
function on an object, and such a parameter a field that the constructor assigns. Known members of
enumerations and exported names of namespaces are replaced wherever they are used.

## Main definitions

* `Lowering.Program`: what is known of the whole program.
* `Lowering.lower`: a tree without such declarations.
* `Lowering.lowerItems`: the items of a document without them.
-/

namespace Scratchpad.TypeScript

namespace Lowering

/-- What is known of the whole program. -/
structure Program where
  table : MemberTable
  /-- Exported variables, with the namespace that exports them if it is not the module. -/
  exported : List (Variable × Option Variable)

/-- Where a node stands. -/
structure Place where
  /-- The namespace around it. -/
  outer : Option Variable := none
  isExported : Bool := false
  /-- Whether something is assigned to it. -/
  isTarget : Bool := false
  /-- Whether it is the name of a declaration. -/
  isName : Bool := false

/-- What has been met so far. -/
structure Progress where
  declared : List Variable := []
  /-- Namespaces whose variables are declared at the end of the list around them. -/
  pending : List Variable := []
  /-- Exported namespaces whose variables are declared at the end of the module. -/
  pendingExports : List Variable := []

/-- Readers of the progress. -/
abbrev Lowerer := StateM Progress

/-! ### Exported variables -/

mutual

/-- The variables that a node exports, with the namespace around it. -/
def exportsOf (outer : Option Variable) : Node → List (Variable × Option Variable)
  | .exportDeclaration _ d => (match d with
      | .variableList _ _ declarators =>
        (declarators.flatMap Node.boundNodes).filterMap Node.variableOf? |>.map (·, outer)
      | .enumDeclaration _ _ name _ => name.variableOf?.toList.map (·, outer)
      | .namespaceDeclaration _ name _ => name.variableOf?.toList.map (·, outer)
      | _ => []) ++ exportsOf outer d
  | .namespaceDeclaration _ name body => exportsOf name.variableOf? body
  | .namespaceBody _ items => exportsOfAll outer items
  | .exportNamed _ _ specifiers .absent _ => exportsOfAll outer specifiers
  | .exportSpecifier _ _ name _ | .exportDefaultExpression _ name =>
    name.variableOf?.toList.map (·, outer)
  | _ => []
termination_by structural n => n

/-- The variables that nodes export. -/
def exportsOfAll (outer : Option Variable) : List Node → List (Variable × Option Variable)
  | [] => []
  | n :: ns => exportsOf outer n ++ exportsOfAll outer ns
termination_by structural ns => ns

end

/-! ### Nodes that were not in the source -/

/-- The name of a variable as a node. -/
def nameNode (p : Nat) (v : Variable) : Node := .identifier p v.name v.scope

/-- An access to a member of a variable. -/
def memberOf (p : Nat) (v : Variable) (name : String) : Node :=
  .member p .plain (nameNode p v) (.word p name)

/-- A call of a function with one parameter. -/
def callWith (p : Nat) (param : Variable) (body : List Node) (argument : Node) : Node :=
  .call p .plain (.function p {} .absent [nameNode p param] [] (.blockStatement p body)) [] [argument]

/-- A target, or a new object that is assigned to it. -/
def orNew (p : Nat) (target : Node) : Node :=
  .binary p "||" target (.assignment p "=" target (.object p []))

/-- A declaration of variables without values. -/
def declare (p : Nat) (vs : List Variable) : Node :=
  .variableList p .var (vs.map fun v => .declarator p (nameNode p v) .absent)

/-- The mark in front of a call whose result may go unused. -/
def purityMark : String := "/*#__PURE__*/ "

/-! ### Enumerations -/

/-- A statement that sets a member of an enumeration, both ways unless it is a text. -/
def setMember (p : Nat) (enum : Variable) (name : String) (v : MemberValue) : Node :=
  let key := Node.ofText p name
  let inner := Node.assignment p "=" (.index p .plain (nameNode p enum) key) (v.toNode p)
  .expressionStatement p <| match v with
    | .text _ => inner
    | _ => .assignment p "=" (.index p .plain (nameNode p enum) inner) key

/-- The code that an enumeration leaves behind, or nothing. -/
def lowerEnum (g : Program) (place : Place) (p : Nat) (isConst : Bool) (enum : Variable)
    (members : List Node) : Lowerer Node := do
  let state ← get
  let isFirst := !state.declared.contains enum
  set { state with declared := enum :: state.declared }
  let isInlined := isConst && !place.isExported && !(g.exported.any (·.1 == enum))
  let values := members.filterMap fun
    | .enumMember _ key _ =>
      some (key.memberKeyText, (g.table.get? enum key.memberKeyText).getD .missing)
    | _ => none
  let kept := values.filter fun (_, v) => !isInlined || !v.isConstant
  if kept.isEmpty && isConst then return .absent
  let assignments := kept.map fun (name, v) => setMember p enum name v
  match isFirst, (if place.isExported then place.outer else none) with
  | _, some outer =>
    let target := memberOf p outer enum.name
    return .expressionStatement p (callWith p enum assignments (orNew p target))
  | false, none => return .expressionStatement p (callWith p enum assignments (nameNode p enum))
  | true, none =>
    let body := assignments ++ [.returnStatement p (nameNode p enum)]
    let start := if place.isExported then .object p []
      else Node.binary p "||" (nameNode p enum) (.object p [])
    let call := callWith p enum body start
    let isPure := kept.all fun (_, v) => v.isConstant
    return .variableList p .var
      [.declarator p (nameNode p enum) (if isPure then .unary p purityMark call else call)]

/-! ### Namespaces -/

/-- The value that an import by an equation stands for. -/
def referenceValue : Node → Node
  | .externalModule p source => .call p .plain (.identifier p "require" 0) [] [source]
  | n => n

/-- An item of a namespace as statements of the function that fills it. -/
def namespaceItem (outer : Variable) : Node → List Node
  | .exportDeclaration p (.variableList _ _ declarators) =>
    let assignments := declarators.filterMap fun
      | .declarator q target value =>
        if value.isAbsent then none else some (.assignment q "=" target value)
      | _ => none
    match assignments with
    | [] => []
    | [e] => [.expressionStatement p e]
    | es => [.expressionStatement p (.sequence p es)]
  | .exportDeclaration p d@(.function _ _ name ..) | .exportDeclaration p d@(.classLike _ _ _ name ..) =>
    let text := name.nameText?.getD ""
    [d, .expressionStatement p (.assignment p "=" (memberOf p outer text) name)]
  | .exportDeclaration _ d => [d]
  | .importEquals p isExport _ name reference =>
    let value := referenceValue reference
    if isExport then
      [.expressionStatement p (.assignment p "=" (memberOf p outer (name.nameText?.getD "")) value)]
    else [.variableList p .constant [.declarator p name value]]
  | .absent => []
  | n => [n]

/-- The call that a namespace leaves behind. -/
def lowerNamespace (place : Place) (p : Nat) (name : Variable) (body : List Node) : Lowerer Node := do
  let outer := if place.isExported then place.outer else none
  modify fun s =>
    if s.declared.contains name then s
    else
      let s := { s with declared := name :: s.declared }
      if !place.isExported then { s with pending := s.pending ++ [name] }
      else if place.outer.isNone then { s with pendingExports := s.pendingExports ++ [name] }
      else s
  let target := match outer with
    | some o => memberOf p o name.name
    | none => nameNode p name
  return .expressionStatement p (callWith p name body (orNew p target))

/-! ### Constructor parameters that are fields -/

/-- The name of a parameter that is a field. -/
def fieldParameter? : Node → Option Node
  | .parameter _ true _ (.defaulted _ target _) | .parameter _ true _ target => some target
  | _ => none

/-- A parameter that is no field any more. -/
def plainParameter : Node → Node
  | .parameter p true ds target => if ds.isEmpty then target else .parameter p false ds target
  | n => n

/-- The target that sets a field of the new object. -/
def fieldTarget (p : Nat) : Node → Node
  | .computedKey _ e => .index p .plain (.thisExpression p) e
  | key@(.literal ..) => .index p .plain (.thisExpression p) key
  | key => .member p .plain (.thisExpression p) key

/-- Whether a node has its own receiver. -/
def hasOwnReceiver : Node → Bool
  | .function .. | .classLike .. => true
  | _ => false

/-- A tree in which more expressions follow every call of the base constructor. -/
def afterSuper (extra : List Node) (n : Node) : Node :=
  if hasOwnReceiver n then n
  else
    match n.withChildren (n.children.attach.map fun ⟨c, _⟩ => afterSuper extra c) with
    | call@(.call p _ (.superExpression _) _ _) => .sequence p (call :: extra)
    | m => m
termination_by n
decreasing_by exact Node.sizeOf_lt_of_mem_children ‹_›

/-- Whether a tree calls the base constructor. -/
def callsSuper (n : Node) : Bool :=
  (n.searchUntil hasOwnReceiver).any fun
    | .call _ _ (.superExpression _) _ _ => true
    | _ => false

/-- The body of a constructor that also sets fields. -/
def withFields (extra : List Node) : Node → Node
  | .blockStatement p body =>
    if body.any callsSuper then .blockStatement p (body.map (afterSuper extra))
    else .blockStatement p (extra.map (fun e => .expressionStatement p e) ++ body)
  | n => n

/-- The fields that the parameters of a constructor declare. -/
def parameterFields (members : List Node) : List Node :=
  members.flatMap fun
    | .method _ .constructor _ _ _ (.function _ _ _ params _ _) => params.filterMap fieldParameter?
    | _ => []

/-- Members of a class in which the constructor sets the fields that its parameters are, and all other
fields with initializers after them. -/
def lowerMembers (members : List Node) : List Node :=
  let names := parameterFields members
  if names.isEmpty then members
  else
    let fields := names.map fun n =>
      Node.field n.pos {} [] (.word n.pos (n.nameText?.getD "")) [] .absent
    let fromParameters := names.map fun n =>
      Node.assignment n.pos "=" (fieldTarget n.pos (.word n.pos (n.nameText?.getD ""))) n
    let fromFields := members.filterMap fun
      | .field p modifiers _ key _ value =>
        if modifiers.isStatic || modifiers.isAccessor || value.isAbsent then none
        else some (Node.assignment p "=" (fieldTarget p key) value)
      | _ => none
    let extra := fromParameters ++ fromFields
    fields ++ members.map fun
      | .field p modifiers ds key types value =>
        if modifiers.isStatic || modifiers.isAccessor then .field p modifiers ds key types value
        else .field p modifiers ds key types .absent
      | .method p .constructor modifiers ds key (.function q traits name params types body) =>
        .method p .constructor modifiers ds key
          (.function q traits name (params.map plainParameter) types (withFields extra body))
      | m => m

/-! ### Whole trees -/

/-- The places of the parts of a node. -/
def partPlaces (place : Place) (n : Node) : List Place :=
  let inner : Place := { outer := place.outer }
  let target := { inner with isTarget := true }
  let name := { inner with isName := true }
  match n with
  | .exportDeclaration .. => [{ inner with isExported := true }]
  | .assignment .. => [target, inner]
  | .update .. => [target]
  | .arrayPattern _ elements => elements.map fun _ => target
  | .objectPattern _ members => members.map fun _ => target
  | .patternProperty .. => [inner, target]
  | .patternShorthand .. | .defaulted .. => [target, inner]
  | .rest .. => [target]
  | .forInStatement .. | .forOfStatement .. => [target, inner, inner]
  | .enumDeclaration _ _ _ members => name :: members.map fun _ => inner
  | .namespaceDeclaration _ v body =>
    let nested : Place := { outer := v.variableOf? }
    [name, match body with
      | .namespaceDeclaration .. => { nested with isExported := true }
      | _ => nested]
  | .function _ _ _ params types _ => name :: (params ++ types ++ [n]).map fun _ => inner
  | .classLike _ _ decorators _ _ types members =>
    decorators.map (fun _ => inner) ++ [name, inner] ++ (types ++ members).map fun _ => inner
  | .exportSpecifier .. => [name, name]
  | _ => n.children.map fun _ => inner

/-- What a use of a name is replaced by. -/
def replaced? (g : Program) (place : Place) (n : Node) : Option Node :=
  match n with
  | .identifier p name scope =>
    if place.isName then none
    else match g.exported.find? fun (v, outer) => v == ⟨name, scope⟩ && outer.isSome with
      | some (_, some outer) => some (memberOf p outer name)
      | _ => none
  | .member p .. | .index p .. => do
    if place.isTarget then none
    let (enum, name) ← n.memberAccess?
    let v ← g.table.constant? enum name
    return v.toNode p
  | _ => none

/-- The name of a variable, or the one behind the last point of an access. -/
def lastName : Node → String
  | .identifier _ name _ => name
  | .member _ _ _ (.word _ name) => name
  | _ => ""

/-- Puts together a node whose parts have been lowered. -/
def finish (g : Program) (place : Place) (n : Node) : Lowerer Node := do
  match n with
  | .shorthand p name =>
    return if name.isIdentifier then n else .property p (.word p (lastName name)) name
  | .patternShorthand p name value =>
    if name.isIdentifier then return n
    let target := if value.isAbsent then name else .defaulted p name value
    return .patternProperty p (.word p (lastName name)) target
  | .exportDeclaration _ d =>
    return match d with
      | .expressionStatement .. | .absent => d
      | _ => n
  | .enumDeclaration p isConst name members =>
    match name.variableOf? with
    | some enum => lowerEnum g place p isConst enum members
    | none => return n
  | .namespaceDeclaration p name body =>
    match name.variableOf? with
    | none => return n
    | some v =>
      lowerNamespace place p v <| match body with
        | .namespaceBody _ items => items
        | other => [other]
  | .blockStatement p body => return .blockStatement p (body.filter (!·.isAbsent))
  | .switchCase p test body => return .switchCase p test (body.filter (!·.isAbsent))
  | .classLike p isAbstract ds name superclass types members =>
    return .classLike p isAbstract ds name superclass types (lowerMembers members)
  | _ => return n

/-- The declarations of namespaces that are due at the end of a list. -/
def dueDeclarations (vs : List Variable) : List Node :=
  if vs.isEmpty then [] else [declare 0 vs]

/-- Opens a list with declarations of its own, if a node is one; gives what was due around it. -/
def enter (n : Node) : Lowerer (List Variable) := do
  let due := (← get).pending
  if let .namespaceBody .. := n then modify fun s => { s with pending := [] }
  return due

/-- A tree without enumerations, namespaces and parameters that are fields. -/
def lower (g : Program) (place : Place) (n : Node) : Lowerer Node := do
  if let some e := replaced? g place n then return e
  let due ← enter n
  let parts ← (n.children.attach.zip (partPlaces place n)).mapM fun (⟨c, _⟩, q) => lower g q c
  match place.outer, n.withChildren parts with
  | some outer, .namespaceBody p items =>
    let own := (← get).pending
    modify fun s => { s with pending := due }
    return .namespaceBody p (items.flatMap (namespaceItem outer) ++ dueDeclarations own)
  | _, m => finish g place m
termination_by n
decreasing_by exact Node.sizeOf_lt_of_mem_children ‹_›

/-- An import or export by an equation as code. -/
def equationItem : Node → Node
  | .importEquals p isExport _ name reference =>
    let value := match reference with
      | .externalModule q _ =>
        if isExport then
          .assignment q "="
            (.member q .plain (.identifier q "exports" 0) (.word q (name.nameText?.getD "")))
            (referenceValue reference)
        else referenceValue reference
      | other => other
    let declaration := Node.variableList p .constant [.declarator p name value]
    match isExport, reference with
    | true, .externalModule .. => declaration
    | true, _ => .exportDeclaration p declaration
    | false, _ => declaration
  | n => n

/-- The statement that an assignment of the whole module stands for. -/
def moduleAssignment? : Node → Option Node
  | .exportAssignment p e =>
    some (.expressionStatement p
      (.assignment p "=" (.member p .plain (.identifier p "module" 0) (.word p "exports")) e))
  | _ => none

/-- Whether an item is an assignment of the whole module. -/
def isModuleAssignment : Node → Bool
  | .exportAssignment .. => true
  | _ => false

/-- Items without enumerations, namespaces, equations and parameters that are fields. -/
def lowerItems (items : List Node) : List Node :=
  let g : Program :=
    { table := MemberTable.addEnums [] (items.flatMap Node.enumsInOrder)
      exported := exportsOfAll none items }
  let items := (items.filter (!isModuleAssignment ·)).map equationItem ++
    (items.filterMap moduleAssignment?).take 1
  let (lowered, progress) := (items.mapM (lower g {})).run {}
  let exports := progress.pendingExports
  lowered.filter (!·.isAbsent) ++ dueDeclarations progress.pending ++
    if exports.isEmpty then [] else [.exportDeclaration 0 (declare 0 exports)]

end Lowering

end Scratchpad.TypeScript
