import DeclCatalogue.Tree.Declaration

/-!
# Statements

How a node is read as a statement. Statements that wrap others, exports, ambient declarations and
expressions around a module, vanish: they hand their modifiers on to the statements inside. A
module with a dotted name becomes one module for each segment, one inside the other.
-/

namespace DeclCatalogue.Tree

/-! ## Exports -/

/-- The modifiers that an export puts in front of what it exports. -/
def exportModifiers (inherited : List ModifierKind) (children : List ReadNode) :
    List ModifierKind :=
  inherited ++ [.exported] ++
    if (Cst.tokens children).contains "default" then [.default] else []

/-- The value of an export: the child held as one, or what follows the equals sign. -/
def exportedValue? (children : List ReadNode) : Option ReadNode :=
  Cst.childAt? "value" children
    <|> if (Cst.tokens children).contains "=" then
      (Cst.withoutComments (Cst.named children)).head?
    else none

/-- The export of a value. A class or function with a name is declared, any other value is
exported as an expression. -/
def exportValue (source : Source) (head : CstHead) (children : List ReadNode)
    (modifiers : List ModifierKind) (value : ReadNode) : Built Json :=
  let hasName := (Cst.childAt? "name" value.children).isSome
  if (value.type = "class" ∨ value.type = "class_declaration") ∧ hasName then
    classDeclaration source value.head value.children modifiers
  else if (value.type = "function" ∨ value.type = "function_expression"
      ∨ value.type = "function_declaration") ∧ hasName then
    functionDeclaration source value.head value.children modifiers
  else do
    let equals := (Cst.tokens children).contains "="
    let expression ← value.note.expression
    return make .exportAssignment head
      [("isExportEquals", if equals then some (.bool true) else none), ("expression", expression)]

/-- One name of an export, with the name it has here if that is another one. -/
def exportSpecifier (source : Source) (c : ReadNode) : Decoded Json := do
  let nameNode := Cst.childAt? "name" c.children
  let aliasNode := Cst.childAt? "alias" c.children
  let property ← if aliasNode.isSome then identifierOf? source nameNode else .ok none
  let name ← identifierOf? source (aliasNode <|> nameNode)
  return make .exportSpecifier c.head [("propertyName", property), ("name", name)]

/-- The names that an export lists, if there is a node for them. -/
def exportClause (source : Source) : Option ReadNode → Decoded (Option Json)
  | none => .ok none
  | some clause => do
    let nodes := (Cst.named clause.children).filter fun c => c.type = "export_specifier"
    let elements ← decodeEach (exportSpecifier source) nodes
    return some (make .namedExports clause.head [("elements", some (.arr elements))])

/-- An export of names or of a whole module. -/
def exportDeclaration (source : Source) (head : CstHead) (children : List ReadNode) :
    Decoded Json := do
  let specifier := Cst.childAt? "source" children <|> Cst.childOfType? ["string"] children
  let clause ← exportClause source (Cst.childOfType? ["export_clause"] (Cst.named children))
  match clause, specifier with
  | none, none => return make .unknown head []
  | clause, specifier => do
    let module ← match specifier with
      | none => .ok none
      | some c => some <$> stringLiteral source c.head
    return make .exportDeclaration head [("exportClause", clause), ("moduleSpecifier", module)]

/-- An export: of a declaration, of a value, or of names. -/
def exportStatement (source : Source) (head : CstHead) (children : List ReadNode)
    (inherited : List ModifierKind) : Built (List Json) :=
  let modifiers := exportModifiers inherited children
  match Cst.childAt? "declaration" children with
  | some declaration => declaration.note.statement modifiers
  | none =>
    match exportedValue? children with
    | some value => do
      let node ← exportValue source head children modifiers value
      return [node]
    | none => do
      let node ← exportDeclaration source head children
      return [node]

/-! ## Modules -/

/-- The modules of the inner segments of a dotted name around a body. -/
def innerModules (head nameHead : CstHead) (flags : Nat) (segments : List String)
    (body : Option Json) : Option Json :=
  segments.foldr (fun segment body =>
    some (flagged .moduleDeclaration head flags
      [("name", identifierNamed nameHead segment), ("body", body)])) body

/-- A module or a namespace. The name of a module may be a string. -/
def moduleDeclaration (source : Source) (head : CstHead) (children : List ReadNode)
    (inherited : List ModifierKind) : Built Json := do
  let isNamespace := head.type = "internal_module"
  let flags := if isNamespace then NodeFlag.namespaceModule.bit else 0
  let body ← block .moduleBlock (Cst.childAt? "body" children)
  match Cst.childAt? "name" children with
  | none => return make .unknown head []
  | some nameNode =>
    if nameNode.type = "string" then do
      let name ← stringLiteral source nameNode.head
      let modifiers ← modifiers source inherited children
      return flagged .moduleDeclaration head flags
        [("modifiers", modifiers), ("name", some name), ("body", body)]
    else do
      let text ← source.text nameNode.head
      match segments text with
      | [] => return make .unknown head []
      | first :: rest => do
        let innerFlags := flags ||| if isNamespace then NodeFlag.nestedNamespace.bit else 0
        let inner := innerModules head nameNode.head innerFlags rest body
        let modifiers ← modifiers source inherited children
        return flagged .moduleDeclaration head flags
          [("modifiers", modifiers), ("name", identifierNamed nameNode.head first),
           ("body", inner)]

/-- An ambient declaration: of the global scope, which is a module of its own, or of each statement
inside it. -/
def ambientDeclaration (head : CstHead) (children : List ReadNode)
    (inherited : List ModifierKind) : Built (List Json) := do
  let modifiers := inherited ++ [.declared]
  if children.any fun c => c.type = "global" then
    let body ← block .moduleBlock (Cst.childOfType? ["statement_block"] children)
    return [flagged .moduleDeclaration head NodeFlag.globalAugmentation.bit
      [("modifiers", modifierNodes modifiers), ("name", identifierNamed head "global"),
       ("body", body)]]
  else
    let groups ← Built.forEach (fun (c : ReadNode) => c.note.statement modifiers)
      (Cst.withoutComments (Cst.named children))
    return groups.flatten

/-- A statement of an expression. A module that stands in the place of an expression is a
statement of its own. -/
def expressionStatement (source : Source) (head : CstHead) (children : List ReadNode)
    (inherited : List ModifierKind) : Built (List Json) :=
  let inner := Cst.withoutComments (Cst.named children)
  match inner with
  | [only] =>
    if only.type = "internal_module" ∨ only.type = "module" then do
      let node ← moduleDeclaration source only.head only.children inherited
      return [node]
    else plain inner
  | _ => plain inner
where
  /-- The statement of the first expression. -/
  plain (inner : List ReadNode) : Built (List Json) := do
    let expression ← expressionOf? inner.head?
    return [make .expressionStatement head [("expression", expression)]]

/-! ## Statements -/

/-- A statement of a type that is not known is logged and kept as a node of unknown kind. -/
def unknownStatement (source : Source) (head : CstHead) : Built (List Json) := do
  Built.logged ⟨.debug, "Unknown TypeScript statement",
    [("node_type", .str head.type), ("line", .int (source.line head))]⟩
  return [make .unknown head []]

/-- Reads a node as a statement. -/
def statement (source : Source) (head : CstHead) (children : List ReadNode)
    (inherited : List ModifierKind) : Built (List Json) :=
  match StatementShape.ofType head.type with
  | .function => do return [← functionDeclaration source head children inherited]
  | .classBody => do return [← classDeclaration source head children inherited]
  | .interface => do return [← interfaceDeclaration source head children inherited]
  | .typeAlias => do return [← typeAliasDeclaration source head children inherited]
  | .enumeration => do return [← enumDeclaration source head children inherited]
  | .variableList => do return [← variableStatement head children inherited]
  | .importing => do return [← importDeclaration source head children]
  | .exporting => exportStatement source head children inherited
  | .ambient => ambientDeclaration head children inherited
  | .module => do return [← moduleDeclaration source head children inherited]
  | .expression => expressionStatement source head children inherited
  | .comment => pure []
  | .plain kind => pure [make kind head []]
  | .other => unknownStatement source head

end DeclCatalogue.Tree
