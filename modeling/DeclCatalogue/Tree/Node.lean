import DeclCatalogue.Cst.Source
import DeclCatalogue.Json.Basic
import DeclCatalogue.SyntaxKind

/-!
# Making syntax nodes

The nodes of a syntax tree: JSON objects with the tag of a kind, a range of bytes, flags, and
fields of their own. A field without a value is left out.
-/

namespace DeclCatalogue.Tree

/-- The fields that have a value. -/
def present (fields : List (String × Option Json)) : Fields :=
  fields.filterMap fun f => f.2.map fun v => (f.1, v)

/-- A node that takes the range of a concrete node, with flags. -/
def flagged (kind : SyntaxKind) (head : CstHead) (flags : Nat)
    (fields : List (String × Option Json)) : Json :=
  .obj ([("kind", .int kind.code), ("pos", .int head.start), ("end", .int head.stop),
    ("flags", .int flags)] ++ present fields)

/-- A node that takes the range of a concrete node. -/
def make (kind : SyntaxKind) (head : CstHead) (fields : List (String × Option Json)) : Json :=
  flagged kind head 0 fields

/-- A node without a range of its own, such as a modifier. -/
def token (kind : SyntaxKind) : Json :=
  .obj [("kind", .int kind.code), ("pos", .int (-1)), ("end", .int (-1)), ("flags", .int 0)]

/-- A list of nodes, null for each that is missing. -/
def listOf (nodes : List (Option Json)) : Json :=
  .arr (nodes.map fun n => n.getD .null)

end DeclCatalogue.Tree
