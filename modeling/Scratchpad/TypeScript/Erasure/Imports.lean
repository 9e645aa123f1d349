import Scratchpad.TypeScript.Erasure.Types

/-!
# Imports and exports that types alone need

An imported name is kept if code outside types uses it and nothing else of that name is declared at the
top level. An exported name is dropped if only types are declared under it.

## Main definitions

* `Node.uses`: the variables that code uses.
* `Document.withoutTypeImports`: a document without imports and exports of types.
-/

namespace Scratchpad.TypeScript

namespace Node

/-- How a part of a node is searched for uses. -/
inductive UseKind where
  /-- Names are used. -/
  | value
  /-- Names are bound, and only what surrounds them is used. -/
  | target
  /-- Nothing is used. -/
  | nothing
deriving DecidableEq, Inhabited

/-- How the parts of a node are searched, when the node itself is searched in a given way. -/
def partUses (r : UseKind) (n : Node) : List UseKind :=
  let all (r : UseKind) := n.children.map fun _ => r
  match n with
  | typeParts .. | ambient .. | interfaceDeclaration .. | typeAlias .. | importDeclaration ..
  | exportAll .. => all .nothing
  | function _ _ _ params types _ =>
    .target :: params.map (fun _ => .target) ++ types.map (fun _ => .nothing) ++ [.value]
  | arrow _ _ params types _ =>
    params.map (fun _ => .target) ++ types.map (fun _ => .nothing) ++ [.value]
  | classLike _ _ decorators _ _ types members =>
    decorators.map (fun _ => .value) ++ [.target, .value] ++ types.map (fun _ => .nothing) ++
      members.map fun _ => .value
  | declarator .. | assignment .. | catchClause .. => [.target, .value]
  | defaulted .. => [.target, .value]
  | patternProperty .. => [.value, .target]
  | patternShorthand .. => [.target, .value]
  | rest .. | arrayPattern .. | objectPattern .. => all .target
  | typed _ _ types => .target :: types.map fun _ => .nothing
  | parameter _ _ decorators _ => decorators.map (fun _ => .value) ++ [.target]
  | forInStatement .. | forOfStatement .. => [.target, .value, .value]
  | enumDeclaration _ _ _ members => .target :: members.map fun _ => .value
  | namespaceDeclaration .. => [.target, .value]
  | importEquals _ isExport isTypeOnly _ _ =>
    [.nothing, if isExport && !isTypeOnly then .value else .nothing]
  | exportNamed _ isTypeOnly _ source _ =>
    if isTypeOnly || !source.isAbsent then all .nothing else all .value
  | exportSpecifier _ isTypeOnly _ _ => if isTypeOnly then all .nothing else all .value
  | _ => if r == .nothing then all .nothing else all .value

/-- The variables that code uses. -/
def uses (r : UseKind) : Node → List Variable
  | identifier _ name scope => if r == .value then [⟨name, scope⟩] else []
  | n => (n.children.attach.zip (partUses r n)).flatMap fun (⟨c, _⟩, r) =>
    if r == .nothing then [] else uses r c
termination_by n => n
decreasing_by exact sizeOf_lt_of_mem_children ‹_›

/-- The name at the beginning of a dotted name. -/
def rootName? : Node → Option Variable
  | identifier _ name scope => some ⟨name, scope⟩
  | member _ _ base _ => base.rootName?
  | _ => none

/-- The variable that an item imports from a namespace, and where from. -/
def alias? : Node → Option (Variable × Variable)
  | importEquals _ _ false name reference => do return (← name.variableOf?, ← reference.rootName?)
  | _ => none

/-- The variables of values that an item declares. -/
def declaredValues : Node → List Variable
  | variableList _ _ declarators => (declarators.flatMap boundNodes).filterMap variableOf?
  | function _ _ name .. | classLike _ _ _ name .. | enumDeclaration _ _ name _ => name.variableOf?.toList
  | n@(namespaceDeclaration _ name _) => if n.isConcrete then name.variableOf?.toList else []
  | _ => []

/-- The names of types that an item declares. -/
def declaredTypes : Node → List String
  | interfaceDeclaration _ name _ | typeAlias _ name _ => name.nameText?.toList
  | n@(namespaceDeclaration _ name _) => if n.isConcrete then [] else name.nameText?.toList
  | importEquals _ _ true name _ => name.nameText?.toList
  | importDeclaration _ isTypeOnly specifiers _ _ => specifiers.flatMap fun
    | importDefault _ name | importAll _ name => if isTypeOnly then name.nameText?.toList else []
    | importNamed _ isTypeOnly' name _ =>
      if isTypeOnly || isTypeOnly' then name.nameText?.toList else []
    | _ => []
  | _ => []

/-- The declaration inside an item. -/
def declaration : Node → Node
  | exportDeclaration _ (ambient _ d) | exportDefault _ (ambient _ d) => d
  | exportDeclaration _ d | exportDefault _ d | ambient _ d => d
  | n => n

end Node

/-- What a document declares and uses. -/
structure Usage where
  used : List Variable
  values : List Variable
  types : List String

namespace Usage

/-- Adds the variables that used aliases stand for, as often as there may be aliases of aliases. -/
def follow (aliases : List (Variable × Variable)) : Nat → List Variable → List Variable
  | 0, used => used
  | n + 1, used =>
    follow aliases n (used ++ (aliases.filter fun (a, _) => used.contains a).map (·.2))

/-- What items declare and use. -/
def ofItems (items : List Node) : Usage :=
  let aliases := items.filterMap Node.alias?
  { used := follow aliases aliases.length (items.flatMap (Node.uses .value))
    values := items.flatMap fun n => n.declaration.declaredValues
    types := items.flatMap fun n => n.declaration.declaredTypes }

/-- Whether an import of a name is kept. -/
def keepsImport (u : Usage) (name : Node) : Bool :=
  match name.variableOf? with
  | some v => !(u.values.contains v) && u.used.contains v
  | none => false

/-- Whether only types are declared under a name. -/
def isPureType (u : Usage) (name : Node) : Bool :=
  match name with
  | .identifier _ w scope =>
    scope ≤ Document.outermost && u.types.contains w && !(u.values.any (·.name == w))
  | _ => false

/-- Whether a specifier of an import is kept. -/
def keepsSpecifier (u : Usage) : Node → Bool
  | .importDefault _ name | .importAll _ name => u.keepsImport name
  | .importNamed _ isTypeOnly name _ => !isTypeOnly && u.keepsImport name
  | _ => false

/-- Whether an exported name of this document is kept. -/
def keepsExport (u : Usage) : Node → Bool
  | .exportSpecifier _ isTypeOnly name _ => !isTypeOnly && !u.isPureType name
  | _ => true

/-- An item without the imports and exports of types, if anything is left of it. -/
def keep? (u : Usage) : Node → Option Node
  | .importDeclaration p isTypeOnly specifiers source attributes =>
    if isTypeOnly then none
    else if specifiers.isEmpty then some (.importDeclaration p false [] source attributes)
    else
      let kept := specifiers.filter u.keepsSpecifier
      if kept.isEmpty then none else some (.importDeclaration p false kept source attributes)
  | .exportNamed p isTypeOnly specifiers source attributes =>
    if isTypeOnly then none
    else
      let kept := specifiers.filter fun s =>
        if source.isAbsent then u.keepsExport s
        else match s with
          | .exportSpecifier _ isTypeOnly _ _ => !isTypeOnly
          | _ => true
      if kept.isEmpty && (source.isAbsent || !specifiers.isEmpty) then none
      else some (.exportNamed p false kept source attributes)
  | .exportAll p isTypeOnly source attributes =>
    if isTypeOnly then none else some (.exportAll p false source attributes)
  | .exportDefaultExpression p e =>
    if u.isPureType e then none else some (.exportDefaultExpression p e)
  | n@(.importEquals _ isExport isTypeOnly name _) =>
    if isTypeOnly then none
    else if isExport || (name.variableOf?.map u.used.contains).getD false then some n
    else none
  | n => some n

end Usage

namespace Document

/-- A document without imports and exports of types. -/
def withoutTypeImports (d : Document) : Document :=
  let usage := Usage.ofItems d.items
  { d with items := d.items.filterMap usage.keep? }

end Document

end Scratchpad.TypeScript
