/-!
# Syntax trees

One inductive type holds every kind of syntax node: expressions, patterns, statements, class members,
module items and the type-level parts that are erased later. Each node carries the position of its
first character. A missing part (no initializer, no label, a hole in an array) is `Node.absent`, so
that children are always nodes or lists of nodes.

## Main definitions

* `Node`: the trees.
* `Node.pos`: where a node begins.
* `Node.children`: the immediate parts, in source order.
* `Node.withChildren`: the same node with other parts.

## Main statements

* `Node.sizeOf_lt_of_mem_children`: a part is smaller than the whole, so a pass over a tree may recurse
  on parts.
-/

namespace Scratchpad.TypeScript

/-- How a member access or call continues what is on its left. -/
inductive Linkage where
  /-- An ordinary access. -/
  | plain
  /-- An access to the right of an optional one, skipped together with it. -/
  | chained
  /-- An access behind a question mark and a dot. -/
  | optional
deriving DecidableEq, Inhabited, Repr

/-- Constants that are written in the source as they are printed. -/
inductive Literal where
  | null
  | boolean (value : Bool)
  | number (raw : String)
  | bigint (raw : String)
  | text (raw value : String)
  | regex (raw : String)
deriving DecidableEq, Inhabited, Repr

/-- What a method is called for. -/
inductive MethodKind where
  | method
  | getter
  | setter
  | constructor
deriving DecidableEq, Inhabited, Repr

/-- The keyword that introduces variables. -/
inductive VariableKind where
  | var
  | lexical
  | constant
  | using
  | awaitUsing
deriving DecidableEq, Inhabited, Repr

/-- The spelling of a type assertion. -/
inductive CastKind where
  /-- An assertion written behind the value with the word `as`. -/
  | asserted
  /-- A value checked against a type with `satisfies`. -/
  | checked
  /-- An assertion written in angle brackets before the value. -/
  | angled
  /-- The exclamation mark that rules out absence. -/
  | nonNull
  /-- Type arguments with no call behind them. -/
  | instantiated
deriving DecidableEq, Inhabited, Repr

/-- Whether a function suspends, and how. -/
structure Traits where
  isAsync : Bool := false
  isGenerator : Bool := false
deriving DecidableEq, Inhabited, Repr

/-- The modifiers in front of a class member. -/
structure Modifiers where
  isStatic : Bool := false
  isAbstract : Bool := false
  isDeclare : Bool := false
  isOverride : Bool := false
  isReadonly : Bool := false
  isAccessor : Bool := false
  isOptional : Bool := false
  hasAccess : Bool := false
deriving DecidableEq, Inhabited, Repr

/-- Syntax trees. -/
inductive Node where
  /-- A part that is not there. -/
  | absent
  -- names and constants
  | identifier (pos : Nat) (name : String) (scope : Nat)
  | privateName (pos : Nat) (name : String)
  /-- A name that stands for no variable, such as the name of a property. -/
  | word (pos : Nat) (text : String)
  | literal (pos : Nat) (value : Literal)
  | template (pos : Nat) (quasis : List String) (values : List Node)
  -- expressions
  | thisExpression (pos : Nat)
  | superExpression (pos : Nat)
  | importCallee (pos : Nat)
  | newTarget (pos : Nat)
  | importMeta (pos : Nat)
  | taggedTemplate (pos : Nat) (tag : Node) (types : List Node) (quasi : Node)
  | array (pos : Nat) (elements : List Node)
  | object (pos : Nat) (members : List Node)
  | function (pos : Nat) (traits : Traits) (name : Node) (params types : List Node) (body : Node)
  | arrow (pos : Nat) (isAsync : Bool) (params types : List Node) (body : Node)
  | classLike (pos : Nat) (isAbstract : Bool) (decorators : List Node) (name superclass : Node)
      (types members : List Node)
  | unary (pos : Nat) (operator : String) (argument : Node)
  | update (pos : Nat) (operator : String) (isLeading : Bool) (argument : Node)
  | binary (pos : Nat) (operator : String) (left right : Node)
  | assignment (pos : Nat) (operator : String) (target value : Node)
  | conditional (pos : Nat) (test consequent alternate : Node)
  | call (pos : Nat) (linkage : Linkage) (callee : Node) (types arguments : List Node)
  | newExpression (pos : Nat) (callee : Node) (types : List Node) (hasArguments : Bool)
      (arguments : List Node)
  | member (pos : Nat) (linkage : Linkage) (object property : Node)
  | index (pos : Nat) (linkage : Linkage) (object property : Node)
  | sequence (pos : Nat) (expressions : List Node)
  | yieldExpression (pos : Nat) (isDelegate : Bool) (argument : Node)
  | awaitExpression (pos : Nat) (argument : Node)
  | paren (pos : Nat) (expression : Node)
  | spread (pos : Nat) (argument : Node)
  | cast (pos : Nat) (kind : CastKind) (expression : Node) (types : List Node)
  -- object members
  | shorthand (pos : Nat) (name : Node)
  | shorthandDefault (pos : Nat) (name value : Node)
  | property (pos : Nat) (key value : Node)
  | propertyMethod (pos : Nat) (kind : MethodKind) (key value : Node)
  | computedKey (pos : Nat) (expression : Node)
  -- patterns
  | arrayPattern (pos : Nat) (elements : List Node)
  | objectPattern (pos : Nat) (members : List Node)
  | defaulted (pos : Nat) (target value : Node)
  | rest (pos : Nat) (argument : Node)
  | patternProperty (pos : Nat) (key value : Node)
  | patternShorthand (pos : Nat) (name value : Node)
  | typed (pos : Nat) (target : Node) (types : List Node)
  | parameter (pos : Nat) (isField : Bool) (decorators : List Node) (target : Node)
  -- class members
  | method (pos : Nat) (kind : MethodKind) (modifiers : Modifiers) (decorators : List Node)
      (key value : Node)
  | field (pos : Nat) (modifiers : Modifiers) (decorators : List Node) (key : Node)
      (types : List Node) (value : Node)
  | staticBlock (pos : Nat) (body : Node)
  | indexSignature (pos : Nat) (types : List Node)
  | emptyMember (pos : Nat)
  | decorator (pos : Nat) (expression : Node)
  -- statements
  | expressionStatement (pos : Nat) (expression : Node)
  | blockStatement (pos : Nat) (body : List Node)
  | emptyStatement (pos : Nat)
  | debuggerStatement (pos : Nat)
  | withStatement (pos : Nat) (object body : Node)
  | returnStatement (pos : Nat) (argument : Node)
  | throwStatement (pos : Nat) (argument : Node)
  | labeledStatement (pos : Nat) (label body : Node)
  | breakStatement (pos : Nat) (label : Node)
  | continueStatement (pos : Nat) (label : Node)
  | ifStatement (pos : Nat) (test consequent alternate : Node)
  | switchStatement (pos : Nat) (discriminant : Node) (cases : List Node)
  | switchCase (pos : Nat) (test : Node) (body : List Node)
  | tryStatement (pos : Nat) (block handler finalizer : Node)
  | catchClause (pos : Nat) (param body : Node)
  | whileStatement (pos : Nat) (test body : Node)
  | doWhileStatement (pos : Nat) (body test : Node)
  | forStatement (pos : Nat) (init test update body : Node)
  | forInStatement (pos : Nat) (left right body : Node)
  | forOfStatement (pos : Nat) (isAwait : Bool) (left right body : Node)
  | variableList (pos : Nat) (kind : VariableKind) (declarators : List Node)
  | declarator (pos : Nat) (target value : Node)
  -- declarations of types, and declarations that only types see
  | typeParts (pos : Nat) (parts : List Node)
  | ambient (pos : Nat) (declaration : Node)
  | interfaceDeclaration (pos : Nat) (name : Node) (parts : List Node)
  | typeAlias (pos : Nat) (name : Node) (parts : List Node)
  | enumDeclaration (pos : Nat) (isConst : Bool) (name : Node) (members : List Node)
  | enumMember (pos : Nat) (key value : Node)
  | namespaceDeclaration (pos : Nat) (name body : Node)
  | namespaceBody (pos : Nat) (items : List Node)
  -- module items
  | importDeclaration (pos : Nat) (isTypeOnly : Bool) (specifiers : List Node)
      (source attributes : Node)
  | importDefault (pos : Nat) (name : Node)
  | importAll (pos : Nat) (name : Node)
  | importNamed (pos : Nat) (isTypeOnly : Bool) (name imported : Node)
  | importEquals (pos : Nat) (isExport isTypeOnly : Bool) (name reference : Node)
  | externalModule (pos : Nat) (source : Node)
  | exportNamed (pos : Nat) (isTypeOnly : Bool) (specifiers : List Node) (source attributes : Node)
  | exportSpecifier (pos : Nat) (isTypeOnly : Bool) (name exported : Node)
  | exportAllAs (pos : Nat) (name : Node)
  | exportAll (pos : Nat) (isTypeOnly : Bool) (source attributes : Node)
  | exportDeclaration (pos : Nat) (declaration : Node)
  | exportDefault (pos : Nat) (declaration : Node)
  | exportDefaultExpression (pos : Nat) (expression : Node)
  | exportAssignment (pos : Nat) (expression : Node)
  | exportNamespace (pos : Nat) (name : Node)
deriving Inhabited

namespace Node

/-- The position of the first character of a node. -/
def pos : Node → Nat
  | absent => 0
  | identifier p .. | privateName p .. | word p .. | literal p .. | template p .. | thisExpression p
  | superExpression p | importCallee p | newTarget p | importMeta p | taggedTemplate p ..
  | array p .. | object p .. | function p .. | arrow p .. | classLike p .. | unary p ..
  | update p .. | binary p .. | assignment p .. | conditional p .. | call p ..
  | newExpression p .. | member p .. | index p .. | sequence p .. | yieldExpression p ..
  | awaitExpression p .. | paren p .. | spread p .. | cast p .. | shorthand p ..
  | shorthandDefault p .. | property p .. | propertyMethod p .. | computedKey p ..
  | arrayPattern p .. | objectPattern p .. | defaulted p .. | rest p .. | patternProperty p ..
  | patternShorthand p .. | typed p .. | parameter p .. | method p .. | field p ..
  | staticBlock p .. | indexSignature p .. | emptyMember p | decorator p ..
  | expressionStatement p .. | blockStatement p .. | emptyStatement p | debuggerStatement p
  | withStatement p .. | returnStatement p .. | throwStatement p .. | labeledStatement p ..
  | breakStatement p .. | continueStatement p .. | ifStatement p .. | switchStatement p ..
  | switchCase p .. | tryStatement p .. | catchClause p .. | whileStatement p ..
  | doWhileStatement p .. | forStatement p .. | forInStatement p .. | forOfStatement p ..
  | variableList p .. | declarator p .. | typeParts p .. | ambient p .. | interfaceDeclaration p ..
  | typeAlias p .. | enumDeclaration p .. | enumMember p .. | namespaceDeclaration p ..
  | namespaceBody p .. | importDeclaration p .. | importDefault p .. | importAll p ..
  | importNamed p .. | importEquals p .. | externalModule p .. | exportNamed p ..
  | exportSpecifier p .. | exportAllAs p .. | exportAll p .. | exportDeclaration p ..
  | exportDefault p .. | exportDefaultExpression p .. | exportAssignment p ..
  | exportNamespace p .. => p

/-- Whether a part is missing. -/
def isAbsent : Node → Bool
  | absent => true
  | _ => false

/-- The immediate parts of a node, in the order of the source. -/
def children : Node → List Node
  | absent | identifier .. | privateName .. | word .. | literal .. | thisExpression _
  | superExpression _
  | importCallee _ | newTarget _ | importMeta _ | emptyMember _ | emptyStatement _
  | debuggerStatement _ => []
  | template _ _ xs | array _ xs | object _ xs | sequence _ xs | arrayPattern _ xs
  | objectPattern _ xs | indexSignature _ xs | blockStatement _ xs | variableList _ _ xs
  | typeParts _ xs | namespaceBody _ xs => xs
  | unary _ _ a | update _ _ _ a | yieldExpression _ _ a | awaitExpression _ a | paren _ a
  | spread _ a | shorthand _ a | computedKey _ a | rest _ a | staticBlock _ a | decorator _ a
  | expressionStatement _ a | returnStatement _ a | throwStatement _ a | breakStatement _ a
  | continueStatement _ a | ambient _ a | importDefault _ a | importAll _ a | externalModule _ a
  | exportAllAs _ a | exportDeclaration _ a | exportDefault _ a | exportDefaultExpression _ a
  | exportAssignment _ a | exportNamespace _ a => [a]
  | binary _ _ a b | assignment _ _ a b | member _ _ a b | index _ _ a b | shorthandDefault _ a b
  | property _ a b | propertyMethod _ _ a b | defaulted _ a b | patternProperty _ a b
  | patternShorthand _ a b | withStatement _ a b | labeledStatement _ a b | catchClause _ a b
  | whileStatement _ a b | doWhileStatement _ a b | declarator _ a b | enumMember _ a b
  | namespaceDeclaration _ a b | importNamed _ _ a b | importEquals _ _ _ a b
  | exportSpecifier _ _ a b | exportAll _ _ a b => [a, b]
  | conditional _ a b c | ifStatement _ a b c | tryStatement _ a b c | forInStatement _ a b c
  | forOfStatement _ _ a b c => [a, b, c]
  | forStatement _ a b c d => [a, b, c, d]
  | taggedTemplate _ a ts b => a :: ts ++ [b]
  | function _ _ a ps ts b => a :: ps ++ ts ++ [b]
  | arrow _ _ ps ts b => ps ++ ts ++ [b]
  | classLike _ _ ds a b ts ms => ds ++ [a, b] ++ ts ++ ms
  | call _ _ a ts xs | newExpression _ a ts _ xs => a :: ts ++ xs
  | cast _ _ a ts | typed _ a ts | interfaceDeclaration _ a ts | typeAlias _ a ts => a :: ts
  | parameter _ _ ds a => ds ++ [a]
  | method _ _ _ ds a b => ds ++ [a, b]
  | field _ _ ds a ts b => ds ++ [a] ++ ts ++ [b]
  | switchStatement _ a xs | switchCase _ a xs | enumDeclaration _ _ a xs => a :: xs
  | importDeclaration _ _ xs a b | exportNamed _ _ xs a b => xs ++ [a, b]

/-- Every part of a node is smaller than the node. -/
theorem sizeOf_lt_of_mem_children {c n : Node} (h : c ∈ n.children) : sizeOf c < sizeOf n := by
  have of_mem {xs : List Node} (hc : c ∈ xs) : sizeOf c < sizeOf xs := List.sizeOf_lt_of_mem hc
  have of_eq {x : Node} (hc : c = x) : sizeOf c = sizeOf x := by rw [hc]
  cases n <;> simp only [children, List.mem_cons, List.mem_append, List.not_mem_nil, or_false] at h <;>
    simp <;> grind

/-- Builds a node from exactly one part. -/
def one (xs : List Node) (f : Node → Node) : Node :=
  match xs with
  | [a] => f a
  | _ => absent

/-- Builds a node from exactly two parts. -/
def two (xs : List Node) (f : Node → Node → Node) : Node :=
  match xs with
  | [a, b] => f a b
  | _ => absent

/-- Builds a node from exactly three parts. -/
def three (xs : List Node) (f : Node → Node → Node → Node) : Node :=
  match xs with
  | [a, b, c] => f a b c
  | _ => absent

/-- Builds a node from exactly four parts. -/
def four (xs : List Node) (f : Node → Node → Node → Node → Node) : Node :=
  match xs with
  | [a, b, c, d] => f a b c d
  | _ => absent

/-- Builds a node from a first part and the others. -/
def headed (xs : List Node) (f : Node → List Node → Node) : Node :=
  match xs with
  | a :: xs => f a xs
  | [] => absent

/-- The same kind of node with other parts, given in the order of `children`. A list of the wrong length
gives `absent`. -/
def withChildren : Node → List Node → Node
  | template p qs _, xs => template p qs xs
  | array p _, xs => array p xs
  | object p _, xs => object p xs
  | sequence p _, xs => sequence p xs
  | arrayPattern p _, xs => arrayPattern p xs
  | objectPattern p _, xs => objectPattern p xs
  | indexSignature p _, xs => indexSignature p xs
  | blockStatement p _, xs => blockStatement p xs
  | variableList p k _, xs => variableList p k xs
  | typeParts p _, xs => typeParts p xs
  | namespaceBody p _, xs => namespaceBody p xs
  | unary p op _, xs => one xs (unary p op)
  | update p op l _, xs => one xs (update p op l)
  | yieldExpression p d _, xs => one xs (yieldExpression p d)
  | awaitExpression p _, xs => one xs (awaitExpression p)
  | paren p _, xs => one xs (paren p)
  | spread p _, xs => one xs (spread p)
  | shorthand p _, xs => one xs (shorthand p)
  | computedKey p _, xs => one xs (computedKey p)
  | rest p _, xs => one xs (rest p)
  | staticBlock p _, xs => one xs (staticBlock p)
  | decorator p _, xs => one xs (decorator p)
  | expressionStatement p _, xs => one xs (expressionStatement p)
  | returnStatement p _, xs => one xs (returnStatement p)
  | throwStatement p _, xs => one xs (throwStatement p)
  | breakStatement p _, xs => one xs (breakStatement p)
  | continueStatement p _, xs => one xs (continueStatement p)
  | ambient p _, xs => one xs (ambient p)
  | importDefault p _, xs => one xs (importDefault p)
  | importAll p _, xs => one xs (importAll p)
  | externalModule p _, xs => one xs (externalModule p)
  | exportAllAs p _, xs => one xs (exportAllAs p)
  | exportDeclaration p _, xs => one xs (exportDeclaration p)
  | exportDefault p _, xs => one xs (exportDefault p)
  | exportDefaultExpression p _, xs => one xs (exportDefaultExpression p)
  | exportAssignment p _, xs => one xs (exportAssignment p)
  | exportNamespace p _, xs => one xs (exportNamespace p)
  | binary p op _ _, xs => two xs (binary p op)
  | assignment p op _ _, xs => two xs (assignment p op)
  | member p l _ _, xs => two xs (member p l)
  | index p l _ _, xs => two xs (index p l)
  | shorthandDefault p _ _, xs => two xs (shorthandDefault p)
  | property p _ _, xs => two xs (property p)
  | propertyMethod p k _ _, xs => two xs (propertyMethod p k)
  | defaulted p _ _, xs => two xs (defaulted p)
  | patternProperty p _ _, xs => two xs (patternProperty p)
  | patternShorthand p _ _, xs => two xs (patternShorthand p)
  | withStatement p _ _, xs => two xs (withStatement p)
  | labeledStatement p _ _, xs => two xs (labeledStatement p)
  | catchClause p _ _, xs => two xs (catchClause p)
  | whileStatement p _ _, xs => two xs (whileStatement p)
  | doWhileStatement p _ _, xs => two xs (doWhileStatement p)
  | declarator p _ _, xs => two xs (declarator p)
  | enumMember p _ _, xs => two xs (enumMember p)
  | namespaceDeclaration p _ _, xs => two xs (namespaceDeclaration p)
  | importNamed p t _ _, xs => two xs (importNamed p t)
  | importEquals p e t _ _, xs => two xs (importEquals p e t)
  | exportSpecifier p t _ _, xs => two xs (exportSpecifier p t)
  | exportAll p t _ _, xs => two xs (exportAll p t)
  | conditional p _ _ _, xs => three xs (conditional p)
  | ifStatement p _ _ _, xs => three xs (ifStatement p)
  | tryStatement p _ _ _, xs => three xs (tryStatement p)
  | forInStatement p _ _ _, xs => three xs (forInStatement p)
  | forOfStatement p w _ _ _, xs => three xs (forOfStatement p w)
  | forStatement p _ _ _ _, xs => four xs (forStatement p)
  | cast p k _ _, xs => headed xs (cast p k)
  | typed p _ _, xs => headed xs (typed p)
  | interfaceDeclaration p _ _, xs => headed xs (interfaceDeclaration p)
  | typeAlias p _ _, xs => headed xs (typeAlias p)
  | switchStatement p _ _, xs => headed xs (switchStatement p)
  | switchCase p _ _, xs => headed xs (switchCase p)
  | enumDeclaration p k _ _, xs => headed xs (enumDeclaration p k)
  | taggedTemplate p _ ts _, xs => headed xs fun a xs =>
      let (ts, xs) := xs.splitAt ts.length
      one xs (taggedTemplate p a ts)
  | function p t _ ps ts _, xs => headed xs fun a xs =>
      let (ps, xs) := xs.splitAt ps.length
      let (ts, xs) := xs.splitAt ts.length
      one xs (function p t a ps ts)
  | arrow p s ps ts _, xs =>
      let (ps, xs) := xs.splitAt ps.length
      let (ts, xs) := xs.splitAt ts.length
      one xs (arrow p s ps ts)
  | classLike p s ds _ _ ts _, xs =>
      let (ds, xs) := xs.splitAt ds.length
      headed xs fun a xs => headed xs fun b xs =>
        let (ts, ms) := xs.splitAt ts.length
        classLike p s ds a b ts ms
  | call p l _ ts _, xs => headed xs fun a xs =>
      let (ts, xs) := xs.splitAt ts.length
      call p l a ts xs
  | newExpression p _ ts h _, xs => headed xs fun a xs =>
      let (ts, xs) := xs.splitAt ts.length
      newExpression p a ts h xs
  | parameter p s ds _, xs =>
      let (ds, xs) := xs.splitAt ds.length
      one xs (parameter p s ds)
  | method p k m ds _ _, xs =>
      let (ds, xs) := xs.splitAt ds.length
      two xs (method p k m ds)
  | field p m ds _ ts _, xs =>
      let (ds, xs) := xs.splitAt ds.length
      headed xs fun a xs =>
        let (ts, xs) := xs.splitAt ts.length
        one xs (field p m ds a ts)
  | importDeclaration p t ss _ _, xs =>
      let (ss, xs) := xs.splitAt ss.length
      two xs (importDeclaration p t ss)
  | exportNamed p t ss _ _, xs =>
      let (ss, xs) := xs.splitAt ss.length
      two xs (exportNamed p t ss)
  | n@absent, _ | n@(identifier ..), _ | n@(privateName ..), _ | n@(word ..), _
  | n@(literal ..), _
  | n@(thisExpression _), _ | n@(superExpression _), _ | n@(importCallee _), _
  | n@(newTarget _), _ | n@(importMeta _), _ | n@(emptyMember _), _ | n@(emptyStatement _), _
  | n@(debuggerStatement _), _ => n

end Node

end Scratchpad.TypeScript
