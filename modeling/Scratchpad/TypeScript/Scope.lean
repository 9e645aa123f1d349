import Scratchpad.TypeScript.Document

/-!
# Scopes

Two names stand for the same variable if they are spelled alike and the same scope declares them. Every
scope of a document receives a number, and every name the number of the innermost scope that declares it;
a name that no scope declares has the number zero.

## Main definitions

* `Node.boundNames`: the names that a pattern declares.
* `Node.hoistedNames`, `Node.blockNames`: the names that statements declare in their function and block.
* `Node.resolve`: a tree whose names know their scopes.
* `Document.resolve`: a document whose names know their scopes.
-/

namespace Scratchpad.TypeScript

/-- A variable: its name and the scope that declares it. -/
structure Variable where
  name : String
  scope : Nat
deriving DecidableEq, Inhabited, Repr

namespace Node

/-- A node together with everything below it, up to nodes that stop the search. -/
def searchUntil (stop : Node → Bool) (n : Node) : List Node :=
  if stop n then [n]
  else n :: n.children.attach.flatMap fun ⟨c, _⟩ => searchUntil stop c
termination_by n
decreasing_by exact sizeOf_lt_of_mem_children ‹_›

/-- A node after every node below it and the node itself have been replaced, innermost first. -/
def mapUp (f : Node → Node) (n : Node) : Node :=
  f (n.withChildren (n.children.attach.map fun ⟨c, _⟩ => mapUp f c))
termination_by n
decreasing_by exact sizeOf_lt_of_mem_children ‹_›

/-- Whether a node is the name of a variable. -/
def isIdentifier : Node → Bool
  | identifier .. => true
  | _ => false

/-- The variable of a name. -/
def variableOf? : Node → Option Variable
  | identifier _ name scope => some ⟨name, scope⟩
  | _ => none

/-- The text of a name. -/
def nameText? : Node → Option String
  | identifier _ name _ => some name
  | _ => none

mutual

/-- The names that a pattern declares, as nodes. -/
def boundNodes : Node → List Node
  | n@(identifier ..) => [n]
  | typed _ target _ | parameter _ _ _ target | rest _ target | defaulted _ target _
  | patternProperty _ _ target | patternShorthand _ target _ | declarator _ target _ =>
    boundNodes target
  | arrayPattern _ elements | objectPattern _ elements => boundNodesOf elements
  | _ => []
termination_by structural n => n

/-- The names that patterns declare, as nodes. -/
def boundNodesOf : List Node → List Node
  | [] => []
  | n :: ns => boundNodes n ++ boundNodesOf ns
termination_by structural ns => ns

end

/-- The names that a pattern declares. -/
def boundNames (n : Node) : List String := n.boundNodes.filterMap nameText?

/-- Whether variables that are declared inside stay there. -/
def isFunctionScope : Node → Bool
  | function .. | arrow .. | staticBlock .. | namespaceBody .. => true
  | _ => false

/-- The names that a statement declares for its whole function. -/
def hoistedNames (n : Node) : List String :=
  (n.searchUntil isFunctionScope).flatMap fun
    | variableList _ .var declarators => declarators.flatMap boundNames
    | _ => []

/-- The names that a declaration declares in its block. -/
def declaredNames : Node → List String
  | variableList _ _ declarators => declarators.flatMap boundNames
  | function _ _ name .. | classLike _ _ _ name .. | enumDeclaration _ _ name _
  | namespaceDeclaration _ name _ => name.nameText?.toList
  | _ => []

/-- The names that a statement declares in its block. -/
def blockNames : Node → List String
  | importDeclaration _ _ specifiers _ _ => specifiers.flatMap fun
    | importDefault _ name | importAll _ name | importNamed _ _ name _ => name.nameText?.toList
    | _ => []
  | importEquals _ _ _ name _ => name.nameText?.toList
  | exportDeclaration _ d | exportDefault _ d | labeledStatement _ _ d | ambient _ d => d.declaredNames
  | d => d.declaredNames

/-- The name of a member of an enumeration, in the enumeration's own scope. -/
def memberName? : Node → Option String
  | enumMember _ (word _ w) _ => some w
  | _ => none

end Node

/-- The scopes around a place, innermost first: their numbers and the names they declare. -/
abbrev Scopes := List (Nat × List String)

/-- The number of the innermost scope that declares a name. -/
def Scopes.find (scopes : Scopes) (name : String) : Nat :=
  match scopes.find? fun (_, names) => names.contains name with
  | some (number, _) => number
  | none => 0

namespace Node

/-- Opens a scope for names, unless there are none. -/
def opened (scopes : Scopes) (names : List String) : StateM Nat Scopes := do
  if names.isEmpty then return scopes
  let number ← get
  set (number + 1)
  return (number, names) :: scopes

/-- Whether functions and classes right below a node are declarations. -/
def holdsDeclarations : Node → Bool
  | blockStatement .. | namespaceBody .. | exportDeclaration .. | exportDefault .. | labeledStatement ..
  | switchCase .. | ifStatement .. | ambient .. => true
  | _ => false

/-- The scopes for each part of a node. -/
def partScopes (scopes : Scopes) (isDeclaration : Bool) (n : Node) : StateM Nat (List Scopes) := do
  let all (s : Scopes) := n.children.map fun _ => s
  match n with
  | blockStatement _ body => return all (← opened scopes (body.flatMap blockNames))
  | namespaceBody _ items =>
    return all (← opened scopes (items.flatMap hoistedNames ++ items.flatMap blockNames))
  | function _ _ name params types body =>
    let own ← if isDeclaration then pure scopes else opened scopes name.nameText?.toList
    let inner ← opened own (params.flatMap boundNames ++ body.hoistedNames)
    return own :: (params ++ types ++ [body]).map fun _ => inner
  | arrow _ _ params _ body =>
    return all (← opened scopes (params.flatMap boundNames ++ body.hoistedNames))
  | classLike _ _ decorators name superclass types members =>
    let own ← if isDeclaration then pure scopes else opened scopes name.nameText?.toList
    return (decorators.map fun _ => scopes) ++
      ([name, superclass] ++ types ++ members).map fun _ => own
  | forStatement _ left .. | forInStatement _ left .. | forOfStatement _ _ left .. =>
    return all (← opened scopes left.blockNames)
  | catchClause _ param _ => return all (← opened scopes param.boundNames)
  | switchStatement _ _ cases =>
    return all (← opened scopes (cases.flatMap fun
      | switchCase _ _ body => body.flatMap blockNames
      | _ => []))
  | enumDeclaration _ _ _ members =>
    let inner ← opened scopes (members.filterMap memberName?)
    return scopes :: members.map fun _ => inner
  | staticBlock _ body => return all (← opened scopes body.hoistedNames)
  | _ => return all scopes

/-- A tree whose names know their scopes. -/
def resolve (scopes : Scopes) (isDeclaration : Bool) : Node → StateM Nat Node
  | identifier p name _ => return identifier p name (scopes.find name)
  | n => do
    let inner ← partScopes scopes isDeclaration n
    let parts ← (n.children.attach.zip inner).mapM fun (⟨c, _⟩, s) => resolve s n.holdsDeclarations c
    return n.withChildren parts
termination_by n => n
decreasing_by exact sizeOf_lt_of_mem_children ‹_›

end Node

namespace Document

/-- The number of the outermost scope. -/
def outermost : Nat := 1

/-- A document whose names know their scopes. -/
def resolve (d : Document) : Document :=
  let names := d.items.flatMap Node.hoistedNames ++ d.items.flatMap Node.blockNames
  let resolved := (d.items.mapM (Node.resolve [(outermost, names)] true)).run (outermost + 1)
  { d with items := resolved.1 }

end Document

end Scratchpad.TypeScript
