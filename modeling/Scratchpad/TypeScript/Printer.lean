import Scratchpad.Text.Layout
import Scratchpad.TypeScript.Document

/-!
# Printing

The text of a syntax tree without types. Constants are written as they stand in the source, parentheses
are never added or dropped, and comments are left out. A statement ends its line, except for a block,
whose closing brace may be followed by more.

## Main definitions

* `Node.pieces`: the layout of a tree.
* `Document.print`: the text of a document.
-/

namespace Scratchpad.TypeScript

open Text
open Text.Piece (text line indent dedent joined lines)

/-- The text of a constant. -/
def Literal.shown : Literal → String
  | .null => "null"
  | .boolean true => "true"
  | .boolean false => "false"
  | .number raw | .bigint raw | .text raw _ | .regex raw => raw

namespace Node

/-- Whether a node is a block. -/
def isBlock : Node → Bool
  | blockStatement .. => true
  | _ => false

/-- Whether a space must stand between an operator and its operand. -/
def needsSpace (op : String) : Node → Bool
  | unary _ "+" _ | update _ "++" true _ => op == "+"
  | unary _ "-" _ | update _ "--" true _ => op == "-"
  | _ => false

/-- Whether a point behind a number would belong to the number. -/
def isPlainNumber : Node → Bool
  | literal _ (.number raw) => raw.toList.all Char.isDigit
  | _ => false

/-- The words in front of a function. -/
def functionWords (traits : Traits) : String :=
  (if traits.isAsync then "async " else "") ++ "function" ++ (if traits.isGenerator then "*" else "")

/-- The words in front of a method. -/
def methodWords (traits : Traits) : String :=
  (if traits.isAsync then "async " else "") ++ (if traits.isGenerator then "*" else "")

/-- The keyword that introduces variables. -/
def variableWord : VariableKind → String
  | .var => "var"
  | .lexical => "let"
  | .constant => "const"
  | .using => "using"
  | .awaitUsing => "await using"

/-- Parts in one line with commas between them. -/
def commaList (parts : List (List Piece)) : List Piece := joined [text ", "] parts

/-- A declaration of variables without its end. -/
def declarationPieces (kind : VariableKind) (parts : List (List Piece)) : List Piece :=
  [text (variableWord kind), text " "] ++ commaList parts

/-- Parts in parentheses. -/
def inParens (parts : List (List Piece)) : List Piece :=
  [text "("] ++ commaList parts ++ [text ")"]

/-- Names in braces, as imports and exports write them. -/
def nameList (parts : List (List Piece)) : List Piece :=
  if parts.isEmpty then [text "\x7b \x7d"] else [text "\x7b "] ++ commaList parts ++ [text " \x7d"]

/-- The words behind a quoted module, for its attributes. -/
def attributesPart (attributes : Node) (shown : List Piece) : List Piece :=
  if attributes.isAbsent then [] else [text " with "] ++ shown

/-- The list of a block. -/
def blockOf (parts : List (List Piece)) : List Piece :=
  if parts.isEmpty then [text "\x7b\x7d"] else lines "\x7b" "\x7d" [] parts

/-- The members of a class. -/
def membersOf (parts : List (List Piece)) : List Piece :=
  if parts.isEmpty then [text "\x7b", line, text "\x7d"] else lines "\x7b" "\x7d" [] parts

/-- An access mark for the linkage. -/
def optionalMark (l : Linkage) : String := if l == .optional then "?." else ""

mutual

/-- The layout of a tree. -/
def pieces : Node → List Piece
  | absent => []
  | identifier _ name _ => [text name]
  | privateName _ name => [text ("#" ++ name)]
  | word _ name => [text name]
  | literal _ v => [text v.shown]
  | template _ quasis values => [text "\x60"] ++ templatePieces quasis values ++ [text "\x60"]
  | thisExpression _ => [text "this"]
  | superExpression _ => [text "super"]
  | importCallee _ => [text "import"]
  | newTarget _ => [text "new.target"]
  | importMeta _ => [text "import.meta"]
  | taggedTemplate _ tag _ quasi => pieces tag ++ pieces quasi
  | array _ elements =>
    if elements.isEmpty then [text "[]"]
    else
      let last := if (elements.getLast?.map isAbsent).getD false then [text ","] else []
      [text "[", line, indent] ++ joined [text ",", line] (allPieces elements) ++ last ++
        [dedent, line, text "]"]
  | object _ members =>
    if members.isEmpty then [text "\x7b\x7d"]
    else lines "\x7b" "\x7d" [text ","] (allPieces members)
  | function _ traits name params _ body =>
    [text (functionWords traits)] ++ (if name.isAbsent then [] else [text " "]) ++ pieces name ++
      inParens (allPieces params) ++ [text " "] ++ pieces body
  | arrow _ isAsync params _ body =>
    [text (if isAsync then "async " else "")] ++ inParens (allPieces params) ++ [text "=>"] ++
      (if body.isBlock then pieces body else [indent] ++ pieces body ++ [dedent])
  | classLike _ _ decorators name superclass _ members =>
    (allPieces decorators).flatten ++ [text "class"] ++
      (if name.isAbsent then [] else [text " "]) ++ pieces name ++
      (if superclass.isAbsent then [] else [text " extends "]) ++ pieces superclass ++ [text " "] ++
      membersOf (allPieces members)
  | unary _ op argument =>
    let isWord := op.toList.all Char.isAlpha
    [text op] ++ (if isWord || needsSpace op argument then [text " "] else []) ++ pieces argument
  | update _ op isLeading argument =>
    if isLeading then [text op] ++ pieces argument else pieces argument ++ [text op]
  | binary _ op left right => pieces left ++ [text (" " ++ op ++ " ")] ++ pieces right
  | assignment _ op target value => pieces target ++ [text (" " ++ op ++ " ")] ++ pieces value
  | conditional _ test consequent alternate =>
    pieces test ++ [text " ? "] ++ pieces consequent ++ [text " : "] ++ pieces alternate
  | call _ linkage callee _ arguments =>
    pieces callee ++ [text (optionalMark linkage)] ++ inParens (allPieces arguments)
  | newExpression _ callee _ hasArguments arguments =>
    [text "new "] ++ pieces callee ++ (if hasArguments then inParens (allPieces arguments) else [])
  | member _ linkage base name =>
    pieces base ++ (if isPlainNumber base then [text "."] else []) ++
      [text (if linkage == .optional then "?." else ".")] ++ pieces name
  | index _ linkage base key =>
    pieces base ++ [text (optionalMark linkage ++ "[")] ++ pieces key ++ [text "]"]
  | sequence _ expressions => commaList (allPieces expressions)
  | yieldExpression _ isDelegate argument =>
    [text (if isDelegate then "yield*" else "yield")] ++
      (if argument.isAbsent then [] else [text " "]) ++ pieces argument
  | awaitExpression _ argument => [text "await "] ++ pieces argument
  | paren _ e => [text "("] ++ pieces e ++ [text ")"]
  | spread _ argument => [text "..."] ++ pieces argument
  | cast _ _ e _ => pieces e
  | shorthand _ name => pieces name
  | shorthandDefault _ name value => pieces name ++ [text " = "] ++ pieces value
  | property _ key value => pieces key ++ [text ": "] ++ pieces value
  | propertyMethod _ kind key (function _ traits _ params _ body) =>
    let opening := match kind with
      | .getter => "get "
      | .setter => "set "
      | _ => methodWords traits
    [text opening] ++ pieces key ++ [text " "] ++ inParens (allPieces params) ++
      (if kind == .setter then [] else [text " "]) ++ pieces body
  | propertyMethod _ _ key value => pieces key ++ pieces value
  | computedKey _ e => [text "["] ++ pieces e ++ [text "]"]
  | arrayPattern _ elements =>
    let last := if (elements.getLast?.map isAbsent).getD false then [text ","] else []
    [text "["] ++ commaList (allPieces elements) ++ last ++ [text "]"]
  | objectPattern _ members =>
    if members.isEmpty then [text "\x7b\x7d"]
    else [text "\x7b "] ++ commaList (allPieces members) ++ [text " \x7d"]
  | defaulted _ target value => pieces target ++ [text " = "] ++ pieces value
  | rest _ argument => [text "..."] ++ pieces argument
  | patternProperty _ key value => pieces key ++ [text ": "] ++ pieces value
  | patternShorthand _ name value =>
    pieces name ++ (if value.isAbsent then [] else [text " = "]) ++ pieces value
  | typed _ target _ => pieces target
  | parameter _ _ decorators target => (allPieces decorators).flatten ++ pieces target
  | method _ kind modifiers decorators key (function _ traits _ params _ body) =>
    let opening := match kind with
      | .getter => "get "
      | .setter => "set "
      | _ => methodWords traits
    (allPieces decorators).flatten ++ [text (if modifiers.isStatic then "static " else "")] ++
      [text opening] ++ pieces key ++ inParens (allPieces params) ++
      (if kind == .constructor then [] else [text " "]) ++ pieces body
  | method _ _ _ decorators key value => (allPieces decorators).flatten ++ pieces key ++ pieces value
  | field _ modifiers decorators key _ value =>
    (allPieces decorators).flatten ++ [text (if modifiers.isStatic then "static " else "")] ++
      [text (if modifiers.isAccessor then "accessor " else "")] ++ pieces key ++
      (if value.isAbsent then [] else [text " = "]) ++ pieces value ++ [text ";"]
  | staticBlock _ body => [text "static"] ++ pieces body
  | indexSignature .. => []
  | emptyMember _ => [text ";"]
  | decorator _ e => [text "@"] ++ pieces e ++ [line]
  | expressionStatement _ e => pieces e ++ [text ";", line]
  | blockStatement _ body => blockOf (allPieces body)
  | emptyStatement _ => [text ";", line]
  | debuggerStatement _ => [text "debugger;", line]
  | withStatement _ scope body => [text "with("] ++ pieces scope ++ [text ")"] ++ pieces body ++ [line]
  | returnStatement _ argument =>
    [text "return"] ++ (if argument.isAbsent then [] else [text " "]) ++ pieces argument ++
      [text ";", line]
  | throwStatement _ argument => [text "throw "] ++ pieces argument ++ [text ";", line]
  | labeledStatement _ label body => pieces label ++ [text ": "] ++ pieces body ++ [line]
  | breakStatement _ label =>
    [text "break"] ++ (if label.isAbsent then [] else [text " "]) ++ pieces label ++ [text ";", line]
  | continueStatement _ label =>
    [text "continue"] ++ (if label.isAbsent then [] else [text " "]) ++ pieces label ++ [text ";", line]
  | ifStatement _ test consequent alternate =>
    [text "if ("] ++ pieces test ++ [text ") "] ++ pieces consequent ++
      (if alternate.isAbsent then []
        else (if consequent.isBlock then [text " "] else [line]) ++ [text "else "]) ++
      pieces alternate ++ [line]
  | switchStatement _ discriminant cases =>
    [text "switch("] ++ pieces discriminant ++ [text ")\x7b", line, indent] ++
      joined [line] (allPieces cases) ++ [dedent, line, text "\x7d", line]
  | switchCase _ test body =>
    (if test.isAbsent then [text "default"] else [text "case "]) ++ pieces test ++ [text ":", line] ++
      [indent] ++ joined [line] (allPieces body) ++ [dedent]
  | tryStatement _ block handler finalizer =>
    [text "try "] ++ pieces block ++ (if handler.isAbsent then [] else [text " "]) ++ pieces handler ++
      (if finalizer.isAbsent then [] else [text " finally"]) ++ pieces finalizer ++ [line]
  | catchClause _ param body =>
    [text "catch "] ++
      (if param.isAbsent then [] else [text "("]) ++ pieces param ++
      (if param.isAbsent then [] else [text ") "]) ++ pieces body
  | whileStatement _ test body => [text "while("] ++ pieces test ++ [text ")"] ++ pieces body ++ [line]
  | doWhileStatement _ body test =>
    [text "do "] ++ pieces body ++ [text "while ("] ++ pieces test ++ [text ")", line]
  | forStatement _ init test next body =>
    [text "for("] ++ (match init with
        | variableList _ kind declarators => declarationPieces kind (allPieces declarators)
        | n => pieces n) ++ [text ";"] ++
      (if test.isAbsent then [] else [text " "]) ++ pieces test ++ [text ";"] ++
      (if next.isAbsent then [] else [text " "]) ++ pieces next ++ [text ")"] ++ pieces body ++ [line]
  | forInStatement _ left right body =>
    [text "for("] ++ (match left with
        | variableList _ kind declarators => declarationPieces kind (allPieces declarators)
        | n => pieces n) ++ [text " in "] ++ pieces right ++ [text ")"] ++ pieces body ++
      [line]
  | forOfStatement _ isAwait left right body =>
    [text (if isAwait then "for await (" else "for (")] ++ (match left with
        | variableList _ kind declarators => declarationPieces kind (allPieces declarators)
        | n => pieces n) ++ [text " of "] ++
      pieces right ++ [text ")"] ++ pieces body ++ [line]
  | variableList _ kind declarators =>
    declarationPieces kind (allPieces declarators) ++ [text ";", line]
  | declarator _ target value =>
    pieces target ++ (if value.isAbsent then [] else [text " = "]) ++ pieces value
  | typeParts .. | ambient .. | interfaceDeclaration .. | typeAlias .. | enumDeclaration ..
  | enumMember .. | namespaceDeclaration .. | namespaceBody .. | importEquals .. | externalModule ..
  | exportAssignment .. | exportNamespace .. => []
  | importDeclaration _ _ specifiers source attributes =>
    let isNamed := fun n => match n with
      | importNamed .. => true
      | _ => false
    let shown := specifiers.zip (allPieces specifiers)
    let leading := (shown.filter fun (n, _) => !isNamed n).map (·.2)
    let named := (shown.filter fun (n, _) => isNamed n).map (·.2)
    let parts := leading ++ (if named.isEmpty then [] else [nameList named])
    [text "import "] ++ commaList parts ++ (if parts.isEmpty then [] else [text " from "]) ++
      pieces source ++ attributesPart attributes (pieces attributes) ++ [text ";", line]
  | importDefault _ name => pieces name
  | importAll _ name => [text "* as "] ++ pieces name
  | importNamed _ _ name imported =>
    (if imported.isAbsent then [] else pieces imported ++ [text " as "]) ++ pieces name
  | exportNamed _ _ specifiers source attributes =>
    let isAll := specifiers.any fun
      | exportAllAs .. => true
      | _ => false
    [text "export "] ++
      (if isAll then commaList (allPieces specifiers) else nameList (allPieces specifiers)) ++
      (if source.isAbsent then [] else [text " from "]) ++ pieces source ++
      attributesPart attributes (pieces attributes) ++ [text ";", line]
  | exportSpecifier _ _ name exported =>
    pieces name ++ (if exported.isAbsent then [] else [text " as "]) ++ pieces exported
  | exportAllAs _ name => [text "* as "] ++ pieces name
  | exportAll _ _ source attributes =>
    [text "export * from "] ++ pieces source ++ attributesPart attributes (pieces attributes) ++
      [text ";", line]
  | exportDeclaration _ (classLike _ _ decorators name superclass _ members) =>
    (allPieces decorators).flatten ++ [text "export class "] ++ pieces name ++
      (if superclass.isAbsent then [] else [text " extends "]) ++ pieces superclass ++ [text " "] ++
      membersOf (allPieces members) ++ [line]
  | exportDeclaration _ declaration => [text "export "] ++ pieces declaration ++ [line]
  | exportDefault _ (classLike _ _ decorators name superclass _ members) =>
    (allPieces decorators).flatten ++ [text "export default class"] ++
      (if name.isAbsent then [] else [text " "]) ++ pieces name ++
      (if superclass.isAbsent then [] else [text " extends "]) ++ pieces superclass ++ [text " "] ++
      membersOf (allPieces members) ++ [line]
  | exportDefault _ declaration => [text "export default "] ++ pieces declaration ++ [line]
  | exportDefaultExpression _ e => [text "export default "] ++ pieces e ++ [text ";", line]
termination_by structural n => n

/-- The layouts of trees. -/
def allPieces : List Node → List (List Piece)
  | [] => []
  | n :: ns => pieces n :: allPieces ns
termination_by structural ns => ns

/-- The layout of a template between its quotation marks. -/
def templatePieces : List String → List Node → List Piece
  | quasi :: quasis, value :: values =>
    [text quasi, text "$\x7b"] ++ pieces value ++ [text "\x7d"] ++ templatePieces quasis values
  | quasis, _ => quasis.map text
termination_by structural _ values => values

end

/-- The layout of a statement: the text of its parts, and a line end if a declaration did not end it. -/
def statementPieces (n : Node) : List Piece :=
  match n with
  | blockStatement .. => n.pieces
  | _ => n.pieces ++ [line]

end Node

namespace Document

/-- The text of a document. -/
def print (d : Document) : String :=
  let shebang := match d.shebang with
    | some s => [text ("#!" ++ s), line]
    | none => []
  Piece.render (shebang ++ (d.items.map Node.statementPieces).flatten)

end Document

end Scratchpad.TypeScript
