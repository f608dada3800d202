import DeclCatalogue.Cst.Basic
import DeclCatalogue.Json.Basic

/-!
# Concrete trees as documents

A concrete syntax tree is handed over as JSON. A node is a list of its type, of one for a named node
or zero for a token, of its field name or null, of the two ends of its range, and of the list of its
children. What a parser makes of a source is an object with the `tree` and, if the source has syntax
errors, `errors` set to true.
-/

namespace DeclCatalogue

namespace Cst

mutual
/-- The tree that a document describes; none if it describes no tree. -/
def ofJson? : Json → Option SourceTree
  | .arr [.str type, .int named, field, .int start, .int stop, .arr children] => do
    let children ← ofItems? children
    let field := match field with
      | .str name => some name
      | _ => none
    return .node ⟨type, named = 1, field, start.toNat, stop.toNat⟩ () children
  | _ => none
  termination_by structural v => v

/-- The trees that a list of documents describes. -/
def ofItems? : List Json → Option (List SourceTree)
  | [] => some []
  | v :: rest => do
    let tree ← ofJson? v
    let trees ← ofItems? rest
    return tree :: trees
  termination_by structural vs => vs
end

end Cst

/-- What a parser makes of a source. -/
structure ParsedSource where
  root : SourceTree
  /-- Whether the source has syntax errors. -/
  hasErrors : Bool

namespace ParsedSource

/-- What is made of a source without statements. -/
def empty : ParsedSource :=
  ⟨.node ⟨"program", true, none, 0, 0⟩ () [], false⟩

/-- What a document says that a parser made of a source; none if it holds no tree. -/
def ofJson? (v : Json) : Option ParsedSource :=
  (Cst.ofJson? (v.field "tree")).map fun root => ⟨root, v.field "errors" = .bool true⟩

end ParsedSource

end DeclCatalogue
