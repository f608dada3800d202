import DeclCatalogue.Tree.TypeNode

/-!
# Declarations

How declarations are built from a concrete node and its children: functions, classes, interfaces,
type aliases, enumerations, variables and imports. The modifiers in front of a declaration are
given to each; those among its own children are added.
-/

namespace DeclCatalogue.Tree

/-- A block of statements, if there is a node for it. -/
def block (kind : SyntaxKind) : Option ReadNode → Built (Option Json)
  | none => pure none
  | some c => do
    let statements ← statementsAmong c.children
    return some (make kind c.head [("statements", some (.arr statements))])

/-! ## Functions and classes -/

/-- A function. -/
def functionDeclaration (source : Source) (head : CstHead) (children : List ReadNode)
    (inherited : List ModifierKind) : Built Json := do
  let modifiers ← modifiers source inherited children
  let name ← identifierOf? source (Cst.childAt? "name" children)
  let typeParameters ← typeParameters source children
  let parameters ← parameters source (Cst.childAt? "parameters" children)
  let type ← typeOf? (Cst.childAt? "return_type" children)
  let body ← block .block (Cst.childAt? "body" children)
  return make .functionDeclaration head
    [("modifiers", modifiers), ("name", name), ("typeParameters", typeParameters),
     ("parameters", some parameters), ("type", type), ("body", body)]

/-- The nodes of one member of a class: one, or none for comments and decorators. A method called
`constructor` is the constructor and has no name. -/
def classMember (source : Source) (c : ReadNode) : Built (List Json) :=
  match ClassMemberShape.ofType c.type with
  | .ignored => pure []
  | .method => do
    let nameNode := Cst.childAt? "name" c.children
    let text ← source.textOf? nameNode
    let isConstructor := text = "constructor"
    let modifiers ← modifiers source [] c.children
    let name ← (if isConstructor then .ok none else propertyName source nameNode : Decoded _)
    let typeParameters ← typeParameters source c.children
    let parameters ← parameters source (Cst.childAt? "parameters" c.children)
    let type ← typeOf? (Cst.childAt? "return_type" c.children)
    let body ← block .block (Cst.childAt? "body" c.children)
    return [make (if isConstructor then .constructor else .methodDeclaration) c.head
      [("modifiers", modifiers), ("name", name), ("typeParameters", typeParameters),
       ("parameters", some parameters), ("type", type), ("body", body)]]
  | .property => do
    let modifiers ← modifiers source [] c.children
    let name ← propertyName source (Cst.childAt? "name" c.children)
    let type ← typeOf? (Cst.childAt? "type" c.children)
    let initializer ← expressionOf? (Cst.childAt? "value" c.children)
    return [make .propertyDeclaration c.head
      [("modifiers", modifiers), ("name", name), ("type", type), ("initializer", initializer)]]
  | .other => pure [make .unknown c.head []]

/-- A class. -/
def classDeclaration (source : Source) (head : CstHead) (children : List ReadNode)
    (inherited : List ModifierKind) : Built Json := do
  let modifiers ← modifiers source inherited children
  let name ← identifierOf? source (Cst.childAt? "name" children)
  let typeParameters ← typeParameters source children
  let body := Cst.childrenOf (Cst.childAt? "body" children)
  let members ← Built.forEach (classMember source) (Cst.named body)
  return make .classDeclaration head
    [("modifiers", modifiers), ("name", name), ("typeParameters", typeParameters),
     ("members", some (.arr members.flatten))]

/-! ## Interfaces, type aliases and enumerations -/

/-- An interface. Its body is the child held as one, else the first child that looks like one. -/
def interfaceDeclaration (source : Source) (head : CstHead) (children : List ReadNode)
    (inherited : List ModifierKind) : Decoded Json := do
  let body := Cst.childAt? "body" children
    <|> Cst.childOfType? ["interface_body", "object_type"] children
  let modifiers ← modifiers source inherited children
  let name ← identifierOf? source (Cst.childAt? "name" children)
  let typeParameters ← typeParameters source children
  let members ← typeMembers source (Cst.childrenOf body)
  return make .interfaceDeclaration head
    [("modifiers", modifiers), ("name", name), ("typeParameters", typeParameters),
     ("members", some members)]

/-- A type alias. -/
def typeAliasDeclaration (source : Source) (head : CstHead) (children : List ReadNode)
    (inherited : List ModifierKind) : Decoded Json := do
  let modifiers ← modifiers source inherited children
  let name ← identifierOf? source (Cst.childAt? "name" children)
  let typeParameters ← typeParameters source children
  let type ← typeOf? (Cst.childAt? "value" children)
  return make .typeAliasDeclaration head
    [("modifiers", modifiers), ("name", name), ("typeParameters", typeParameters), ("type", type)]

/-- An enumeration; its members are not kept. -/
def enumDeclaration (source : Source) (head : CstHead) (children : List ReadNode)
    (inherited : List ModifierKind) : Decoded Json := do
  let modifiers ← modifiers source inherited children
  let name ← identifierOf? source (Cst.childAt? "name" children)
  return make .enumDeclaration head [("modifiers", modifiers), ("name", name)]

/-! ## Variables -/

/-- One variable of a statement. -/
def variableDeclaration (c : ReadNode) : Decoded Json := do
  let name ← bindingOf? (Cst.childAt? "name" c.children)
  let type ← typeOf? (Cst.childAt? "type" c.children)
  let initializer ← expressionOf? (Cst.childAt? "value" c.children)
  return make .variableDeclaration c.head
    [("name", name), ("type", type), ("initializer", initializer)]

/-- The flags of a list of variables by the keyword in front of it. -/
def listFlags (keyword : Option String) : Nat :=
  if keyword = some "let" then NodeFlag.letList.bit
  else if keyword = some "const" then NodeFlag.constList.bit
  else 0

/-- A statement of variables. The keyword in front is kept in the flags of their list and is no
modifier. -/
def variableStatement (head : CstHead) (children : List ReadNode)
    (inherited : List ModifierKind) : Decoded Json := do
  let nodes := (Cst.named children).filter fun c => c.type = "variable_declarator"
  let declarations ← decodeEach variableDeclaration nodes
  let list := flagged .variableDeclarationList head (listFlags (Cst.tokens children).head?)
    [("declarations", some (.arr declarations))]
  return make .variableStatement head
    [("modifiers", modifierNodes inherited), ("declarationList", some list)]

/-! ## Imports -/

/-- One name of an import, with the name it has in its module if that is another one. -/
def importSpecifier (source : Source) (c : ReadNode) : Decoded Json := do
  let nameNode := Cst.childAt? "name" c.children
  match Cst.childAt? "alias" c.children with
  | some aliasNode => do
    let property ← identifierOf? source nameNode
    let name ← identifier source aliasNode.head
    return make .importSpecifier c.head [("propertyName", property), ("name", name)]
  | none => do
    let name ← identifierOf? source nameNode
    return make .importSpecifier c.head [("name", name)]

/-- The name and the bindings of an import so far, with those that a further child declares. -/
def importPart (source : Source) (found : Option Json × Option Json) (c : ReadNode) :
    Decoded (Option Json × Option Json) :=
  if c.type = "identifier" then do
    let name ← identifier source c.head
    return (name, found.2)
  else if c.type = "namespace_import" then do
    let name ← identifierOf? source (Cst.childOfType? ["identifier"] (Cst.named c.children))
    return (found.1, some (make .namespaceImport c.head [("name", name)]))
  else if c.type = "named_imports" then do
    let nodes := (Cst.named c.children).filter fun d => d.type = "import_specifier"
    let elements ← decodeEach (importSpecifier source) nodes
    return (found.1, some (make .namedImports c.head [("elements", some (.arr elements))]))
  else .ok found

/-- The name and the bindings that a list of children declares; of each the last one counts. -/
def importParts (source : Source) : Option Json × Option Json → List ReadNode →
    Decoded (Option Json × Option Json)
  | found, [] => .ok found
  | found, c :: rest => do
    let found ← importPart source found c
    importParts source found rest

/-- The clause of an import, if there is a node for it. -/
def importClause (source : Source) (typeOnly : Bool) : Option ReadNode → Decoded (Option Json)
  | none => .ok none
  | some clause => do
    let parts ← importParts source (none, none) (Cst.named clause.children)
    return some (make .importClause clause.head
      [("isTypeOnly", if typeOnly then some (.bool true) else none), ("name", parts.1),
       ("namedBindings", parts.2)])

/-- An import. One without a module specifier gives another name to something already there. -/
def importDeclaration (source : Source) (head : CstHead) (children : List ReadNode) :
    Decoded Json :=
  match Cst.childAt? "source" children <|> Cst.childOfType? ["string"] children with
  | none => .ok (make .importEqualsDeclaration head [])
  | some specifier => do
    let clause ← importClause source (children.any fun c => c.type = "type")
      (Cst.childOfType? ["import_clause"] children)
    let module ← stringLiteral source specifier.head
    return make .importDeclaration head
      [("importClause", clause), ("moduleSpecifier", some module)]

end DeclCatalogue.Tree
