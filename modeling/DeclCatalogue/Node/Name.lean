import DeclCatalogue.Json.Display

/-!
# Names of nodes

How a node is named. An identifier or a literal has a text; a qualified name or a property access
joins the names of its two sides by a point; a declaration is named by its `name`, else by the name
of its type reference, else by its module specifier.
-/

namespace DeclCatalogue.Node

/-- The text of an identifier or a literal, which may stand under either of two field names. -/
def identifierText : Json → Option Json
  | .obj fields =>
    (Json.lookup "text" fields).present? <|> (Json.lookup "escapedText" fields).present?
  | _ => none

/-- The names of two sides, joined by a point. -/
def dotted : Option Json → Option Json → Option Json
  | some left, some right => some (.str (left.display ++ "." ++ right.display))
  | _, _ => none

mutual
/-- The name of an identifier, a qualified name or a property access. -/
def entityName : Json → Option Json
  | .obj fields =>
    identifierText (.obj fields)
      <|> dotted (entityNameAt "left" fields) (entityNameAt "right" fields)
      <|> dotted (entityNameAt "expression" fields) (entityNameAt "name" fields)
  | _ => none

/-- The name of the value of a field. -/
def entityNameAt (key : String) : Fields → Option Json
  | [] => none
  | (k, v) :: rest => if k = key then entityName v else entityNameAt key rest
end

theorem entityNameAt_eq (key : String) (fields : Fields) :
    entityNameAt key fields = entityName (Json.lookup key fields) := by
  induction fields with
  | nil => simp [entityNameAt, entityName]
  | cons f rest ih =>
    rw [entityNameAt, Json.lookup_cons]
    split <;> simp_all

theorem entityName_obj (fields : Fields) :
    entityName (.obj fields) =
      (identifierText (.obj fields)
        <|> dotted (entityName (Json.lookup "left" fields))
          (entityName (Json.lookup "right" fields))
        <|> dotted (entityName (Json.lookup "expression" fields))
          (entityName (Json.lookup "name" fields))) := by
  simp only [entityName, entityNameAt_eq]

/-- The name of a declaration, if it has one. -/
def declaredName? (fields : Fields) : Option Json :=
  identifierText (Json.lookup "name" fields)
    <|> entityName ((Json.lookup "type" fields).field "typeName")
    <|> identifierText (Json.lookup "moduleSpecifier" fields)

end DeclCatalogue.Node
