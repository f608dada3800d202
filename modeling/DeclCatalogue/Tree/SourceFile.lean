import DeclCatalogue.Node.Parent
import DeclCatalogue.Tree.Statement

/-!
# Source files

The syntax tree of a whole source: every node of its concrete tree is read, and the statements at
the top become the statements of a node for the file, in which all nodes are linked to their
parents.
-/

namespace DeclCatalogue.Tree

/-- All readings of a node, from the readings of its children. -/
def reading (source : Source) (head : CstHead) (children : List ReadNode) : Reading :=
  { expression := expression source head children
    binding := binding source head children
    type := typeNode source head children
    statement := statement source head children }

/-- A concrete tree with every node read. -/
def readTree (source : Source) (tree : SourceTree) : ReadNode :=
  Cst.annotate (reading source) tree

/-- The node of a file before its nodes are linked. -/
def fileNode (source : Source) (fileName : Option String) (tree : SourceTree) : Built Json := do
  let root := readTree source tree
  let statements ← statementsAmong root.children
  return make .sourceFile root.head
    [("fileName", fileName.map .str), ("statements", some (.arr statements))]

/-- The syntax tree of a file. -/
def build (source : Source) (fileName : Option String) (tree : SourceTree) : Built Json := do
  let node ← fileNode source fileName tree
  return Node.linkParents node

end DeclCatalogue.Tree
