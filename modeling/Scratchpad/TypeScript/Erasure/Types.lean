import Scratchpad.TypeScript.Scope

/-!
# Erasing types

What only types see is taken out of a tree: annotated targets become bare targets, asserted values bare
values, and declarations without code disappear from their lists.

## Main definitions

* `Node.isConcrete`: statements and items that leave code behind.
* `Node.withoutTypes`: a tree without types.
-/

namespace Scratchpad.TypeScript.Node

/-- Whether a node is a statement that does nothing. -/
def isEmptyStatement : Node → Bool
  | emptyStatement _ => true
  | _ => false

mutual

/-- Whether a statement or item leaves code behind. -/
def isConcrete : Node → Bool
  | emptyStatement _ | interfaceDeclaration .. | typeAlias .. | ambient .. | exportNamespace .. => false
  | function _ _ _ _ _ body => !body.isAbsent
  | namespaceDeclaration _ _ body => isConcrete body
  | namespaceBody _ items => anyConcrete items
  | importDeclaration _ isTypeOnly .. | importEquals _ _ isTypeOnly .. | exportNamed _ isTypeOnly ..
  | exportAll _ isTypeOnly .. => !isTypeOnly
  | exportDeclaration _ d | exportDefault _ d => isConcrete d
  | absent => false
  | _ => true
termination_by structural n => n

/-- Whether one of several statements or items leaves code behind. -/
def anyConcrete : List Node → Bool
  | [] => false
  | n :: ns => isConcrete n || anyConcrete ns
termination_by structural ns => ns

end

/-- Whether a member of a class leaves code behind. -/
def isConcreteMember : Node → Bool
  | indexSignature .. => false
  | method _ _ modifiers _ _ (function _ _ _ _ _ body) => !modifiers.isAbstract && !body.isAbsent
  | field _ modifiers .. => !modifiers.isAbstract && !modifiers.isDeclare
  | _ => true

/-- Whether a parameter only tells the type of the receiver. -/
def isReceiver : Node → Bool
  | identifier _ "this" _ | typed _ (identifier _ "this" _) _ => true
  | _ => false

/-- Parameters that callers see. -/
def withoutReceiver : List Node → List Node
  | p :: ps => if p.isReceiver then ps else p :: ps
  | [] => []

/-- A statement in the place of one, which does nothing if the one leaves no code behind. -/
def orEmpty (n : Node) : Node :=
  if n.isConcrete || n.isAbsent then n else emptyStatement n.pos

/-- Statements that leave code behind or were empty from the beginning. -/
def concreteStatements (body : List Node) : List Node :=
  body.filter fun n => n.isConcrete || n.isEmptyStatement

/-- A node without types, if its parts have none. -/
def eraseHere : Node → Node
  | cast _ _ e _ => e
  | typed _ target _ => target
  | call p l callee _ arguments => call p l callee [] arguments
  | newExpression p callee _ h arguments => newExpression p callee [] h arguments
  | taggedTemplate p tag _ quasi => taggedTemplate p tag [] quasi
  | function p traits name params _ body => function p traits name (withoutReceiver params) [] body
  | arrow p isAsync params _ body => arrow p isAsync params [] body
  | classLike p _ decorators name superclass _ members =>
    classLike p false decorators name superclass [] (members.filter isConcreteMember)
  | field p modifiers decorators key _ value => field p modifiers decorators key [] value
  | blockStatement p body => blockStatement p (concreteStatements body)
  | switchCase p test body => switchCase p test (concreteStatements body)
  | namespaceBody p items => namespaceBody p (items.filter isConcrete)
  | ifStatement p test consequent alternate =>
    ifStatement p test consequent.orEmpty alternate.orEmpty
  | labeledStatement p label body => labeledStatement p label body.orEmpty
  | whileStatement p test body => whileStatement p test body.orEmpty
  | doWhileStatement p body test => doWhileStatement p body.orEmpty test
  | forStatement p init test next body => forStatement p init test next body.orEmpty
  | forInStatement p left right body => forInStatement p left right body.orEmpty
  | forOfStatement p isAwait left right body => forOfStatement p isAwait left right body.orEmpty
  | n => n

/-- A tree without types. -/
def withoutTypes (n : Node) : Node := n.mapUp eraseHere

end Scratchpad.TypeScript.Node
