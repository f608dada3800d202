import DeclCatalogue.Catalogue.Basic

/-!
# Catalogue documents

A catalogue as a JSON document: an object of its contexts, the list of its namespaces and the list
of its imports. The nodes of declarations can be left out.
-/

namespace DeclCatalogue.Catalogue

/-- The field name under which a context stands in a document. -/
def contextKey : Json → String
  | .str s => s
  | context => Json.compact context

/-- A catalogue as a document, declarations with or without their nodes. -/
def document (withNodes : Bool) (catalogue : Catalogue) : Json :=
  .obj [("contexts",
      .obj (catalogue.buckets.map fun b => (contextKey b.1, b.2.toJson withNodes))),
    ("namespaces", .arr catalogue.namespaces),
    ("imports", .arr (catalogue.imports.map (ImportRecord.toJson "from")))]

end DeclCatalogue.Catalogue
