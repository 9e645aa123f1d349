import Scratchpad.TypeScript.Grammar.Expressions
import Scratchpad.TypeScript.Grammar.Modules

/-!
# Documents

A source text is read whole: as a module, or as a script that becomes a module by what it holds. Reading
either delivers every item of the text or the flaw that a user should hear of first: the one that ended
reading, and otherwise the first one that was stepped over.

## Main definitions

* `Grammar.rule`: the rule of each nonterminal.
* `Grammar.read`: the grammar with all its rules.
* `Document.parse`: the items of a source text.
-/

namespace Scratchpad.TypeScript

namespace Grammar

/-- The rule of a nonterminal. -/
def rule : Goal → Rule Node
  | .assignment => assignment
  | .unary => unaryRule
  | .operators left level => operators left level
  | .member isNew => memberOrNew isNew
  | .leftHandSide => leftHandSide
  | .accesses base mayCall mayIndex => accesses base mayCall mayIndex
  | .statement mayDeclare isTopLevel => statement mayDeclare isTopLevel moduleItem
  | .type => typeRule
  | .operatorType => operatorType
  | .pattern => patternRule
  | .asPattern use e => asPattern use e

/-- Reads a nonterminal, with rules nested at most `depth` deep. -/
def read : Nat → Goal → EStateM Flaw State Node
  | 0, _ => do throw ⟨(← get).token.start, .nestingTooDeep⟩
  | depth + 1, g => rule g { run := read depth }

end Grammar

/-- A text that has been read. -/
structure Document where
  /-- The line that names an interpreter, without its two marks. -/
  shebang : Option String := none
  items : List Node

namespace Document

/-- Whether an item makes a script a module. -/
def isModuleItem : Node → Bool
  | .importDeclaration .. | .importEquals .. | .exportNamed .. | .exportAll .. | .exportDeclaration ..
  | .exportDefault .. | .exportDefaultExpression .. | .exportAssignment .. | .exportNamespace .. => true
  | _ => false

/-- Where the line that names an interpreter ends, if the text begins with one. -/
def shebangStop? (source : Source) : Option Nat :=
  if source.hasAt 0 "#!" then
    some (2 + ((source.toList.drop 2).takeWhile (!isLineBreak ·)).length)
  else none

/-- How deep rules may nest in a text of the given length: no rule calls more than a few others before
one of them reads a character. -/
def depthFor (length : Nat) : Nat := 12 * length + 64

/-- Reads all items of a text, as a module or as a script. -/
def parse (isModule : Bool) (text : String) : Except Flaw Document :=
  let source : Source := text.toList.toArray
  let shebang := shebangStop? source
  let first := scanToken source (shebang.getD 0)
  let mode : Mode := { isModule, mayBeModule := true, isStrict := isModule, isTopLevel := true }
  let reading : Rule (List Node) := do
    Rule.settle first
    Grammar.statements true true false
  match reading { run := Grammar.read (depthFor source.size) } { source, token := first, mode } with
  | .error flaw _ => .error flaw
  | .ok items s =>
    let flaws :=
      if s.hasModuleItem || items.any isModuleItem then s.moduleFlaws ++ s.flaws else s.flaws
    match flaws.getLast? with
    | some flaw => .error flaw
    | none => .ok { shebang := shebang.map fun stop => source.slice 2 stop, items }

end Document

end Scratchpad.TypeScript
