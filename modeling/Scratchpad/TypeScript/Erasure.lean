import Scratchpad.TypeScript.Erasure.Imports
import Scratchpad.TypeScript.Erasure.Lowering

/-!
# Documents without types

## Main definitions

* `Document.withoutTypes`: a document without anything that only types need.
-/

namespace Scratchpad.TypeScript

namespace Document

/-- Whether an item is written with `import` or `export` as modules know them. -/
def isPlainModuleItem : Node → Bool
  | .importDeclaration .. | .exportNamed .. | .exportAll .. | .exportDeclaration .. | .exportDefault ..
  | .exportDefaultExpression .. => true
  | _ => false

/-- A document without anything that only types need. What was a module is still one, if need be by an
empty list of exports. -/
def withoutTypes (d : Document) : Document :=
  let bare := d.resolve.withoutTypeImports
  let items := Lowering.lowerItems ((bare.items.map Node.withoutTypes).filter Node.isConcrete)
  let marker := Node.exportNamed 0 false [] .absent .absent
  { d with
    items := if d.items.any isPlainModuleItem && !items.any isPlainModuleItem then items ++ [marker]
      else items }

end Document

end Scratchpad.TypeScript
