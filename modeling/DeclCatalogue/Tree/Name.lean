import DeclCatalogue.Tree.Reading

/-!
# Names and literals

Identifiers, dotted names, the names of properties and literals, made from the text of a concrete
node.
-/

namespace DeclCatalogue.Tree

variable {α : Type}

/-- An identifier with the given text; none for an empty text. -/
def identifierNamed (head : CstHead) (text : String) : Option Json :=
  if text = "" then none else some (make .identifier head [("text", some (.str text))])

/-- The identifier that a node stands for. -/
def identifier (source : Source) (head : CstHead) : Decoded (Option Json) :=
  (source.text head).map (identifierNamed head)

/-- The identifier that a node stands for, if there is a node. -/
def identifierOf? (source : Source) : Option (Cst α) → Decoded (Option Json)
  | none => .ok none
  | some c => identifier source c.head

/-- A string literal without its quotes. -/
def stringLiteral (source : Source) (head : CstHead) : Decoded Json :=
  (source.text head).map fun text =>
    make .stringLiteral head [("text", some (.str (unquote text)))]

/-- A numeral as it is written. -/
def numericLiteral (source : Source) (head : CstHead) : Decoded Json :=
  (source.text head).map fun text => make .numericLiteral head [("text", some (.str text))]

/-- The identifiers of the segments of a dotted name, joined from left to right. -/
def qualifiedName (head : CstHead) : List String → Option Json
  | [] => none
  | first :: rest =>
    rest.foldl (fun left segment =>
        some (make .qualifiedName head
          [("left", left), ("right", identifierNamed head segment)]))
      (identifierNamed head first)

/-- The name that a node with a dotted text stands for. -/
def entityName (source : Source) (head : CstHead) : Decoded (Option Json) :=
  (source.text head).map fun text => qualifiedName head (segments text)

/-- The name of a property, if there is a node for it. -/
def propertyName (source : Source) : Option (Cst α) → Decoded (Option Json)
  | none => .ok none
  | some c =>
    match PropertyShape.ofType c.type with
    | .text => some <$> stringLiteral source c.head
    | .number => some <$> numericLiteral source c.head
    | .name => identifier source c.head
    | .other => .ok (some (make .unknown c.head []))

/-- The modifier that a child stands for. A keyword stands for itself; the modifiers of access and
of overriding are nodes around their keyword. -/
def modifierAt? (source : Source) (c : Cst α) : Decoded (Option ModifierKind) :=
  if c.type = "accessibility_modifier" ∨ c.type = "override_modifier" then
    (source.trimmedText c.head).map modifierOf?
  else .ok (if c.isNamed then none else modifierOf? c.type)

/-- The modifiers in front of a node and after them those among its children that are new. -/
def gatherModifiers (source : Source) :
    List ModifierKind → List (Cst α) → Decoded (List ModifierKind)
  | found, [] => .ok found
  | found, c :: rest => do
    match ← modifierAt? source c with
    | none => gatherModifiers source found rest
    | some m => gatherModifiers source (if found.contains m then found else found ++ [m]) rest

/-- Modifiers as a list of nodes; none if there are none. -/
def modifierNodes (modifiers : List ModifierKind) : Option Json :=
  if modifiers.isEmpty then none else some (.arr (modifiers.map fun m => token m.syntaxKind))

/-- The modifiers of a node with the given ones in front of it, as a list of nodes. -/
def modifiers (source : Source) (inherited : List ModifierKind) (children : List (Cst α)) :
    Decoded (Option Json) :=
  (gatherModifiers source inherited children).map modifierNodes

end DeclCatalogue.Tree
