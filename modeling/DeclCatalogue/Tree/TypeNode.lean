import DeclCatalogue.Tree.Name

/-!
# Expressions, bindings and types

How a node is read as an expression, as the left side of a binding and as a type, given the
readings of its children; and the parameters, type parameters and members that types and
declarations have in common.
-/

namespace DeclCatalogue.Tree

/-- Reads a node as an expression: a name, a property access, a literal, or what stands inside
parentheses. -/
def expression (source : Source) (head : CstHead) (children : List ReadNode) :
    Decoded (Option Json) :=
  match ExpressionShape.ofType head.type with
  | .name => identifier source head
  | .memberAccess => do
    let object ← expressionOf? (Cst.childAt? "object" children)
    let property ← identifierOf? source (Cst.childAt? "property" children)
    return some (make .propertyAccessExpression head [("expression", object), ("name", property)])
  | .parenthesized =>
    match (Cst.named children).head? with
    | some inner => inner.note.expression
    | none => .ok (some (make .unknown head []))
  | .text => some <$> stringLiteral source head
  | .number => some <$> numericLiteral source head
  | .other => .ok (some (make .unknown head []))

/-- Reads a node as the left side of a binding: a name, a pattern, or what follows the dots of a
rest pattern. -/
def binding (source : Source) (head : CstHead) (children : List ReadNode) :
    Decoded (Option Json) :=
  match BindingShape.ofType head.type with
  | .name => identifier source head
  | .objectPattern => .ok (some (make .objectBindingPattern head []))
  | .arrayPattern => .ok (some (make .arrayBindingPattern head []))
  | .rest =>
    match (Cst.named children).head? with
    | some inner => inner.note.binding
    | none => .ok (some (make .unknown head []))
  | .other => .ok (some (make .unknown head []))

/-! ## Parameters -/

/-- One type parameter. -/
def typeParameter (source : Source) (c : ReadNode) : Decoded Json := do
  let name ← identifierOf? source (Cst.childAt? "name" c.children)
  let constraint ← typeOf? (Cst.childAt? "constraint" c.children)
  return make .typeParameter c.head [("name", name), ("constraint", constraint)]

/-- The type parameters among the children of a node; none without a list of them. -/
def typeParameters (source : Source) (children : List ReadNode) : Decoded (Option Json) :=
  match Cst.childAt? "type_parameters" children with
  | none => .ok none
  | some list => do
    let nodes := (Cst.named list.children).filter fun c => c.type = "type_parameter"
    let parameters ← decodeEach (typeParameter source) nodes
    return some (.arr parameters)

/-- One parameter. An optional one has a question token. -/
def parameter (source : Source) (c : ReadNode) : Decoded Json := do
  let modifiers ← modifiers source [] c.children
  let name ← bindingOf? (Cst.childAt? "pattern" c.children)
  let question := if c.type = "optional_parameter" then some (token .questionToken) else none
  let type ← typeOf? (Cst.childAt? "type" c.children)
  return make .parameter c.head
    [("modifiers", modifiers), ("name", name), ("questionToken", question), ("type", type)]

/-- The parameters that a node lists, if there is a node. -/
def parameters (source : Source) (list : Option ReadNode) : Decoded Json := do
  let nodes := (Cst.named (Cst.childrenOf list)).filter fun c =>
    c.type = "required_parameter" || c.type = "optional_parameter"
  let parameters ← decodeEach (parameter source) nodes
  return .arr parameters

/-! ## Members of object types and interfaces -/

/-- The nodes of one member of an object type or an interface: one, or none for a comment. -/
def typeMember (source : Source) (c : ReadNode) : Decoded (List Json) :=
  match TypeMemberShape.ofType c.type with
  | .ignored => .ok []
  | .property => do
    let modifiers ← modifiers source [] c.children
    let name ← propertyName source (Cst.childAt? "name" c.children)
    let question :=
      if c.children.any fun d => d.type = "?" then some (token .questionToken) else none
    let type ← typeOf? (Cst.childAt? "type" c.children)
    return [make .propertySignature c.head
      [("modifiers", modifiers), ("name", name), ("questionToken", question), ("type", type)]]
  | .method => do
    let name ← propertyName source (Cst.childAt? "name" c.children)
    let typeParameters ← typeParameters source c.children
    let parameters ← parameters source (Cst.childAt? "parameters" c.children)
    let type ← typeOf? (Cst.childAt? "return_type" c.children)
    return [make .methodSignature c.head
      [("name", name), ("typeParameters", typeParameters), ("parameters", some parameters),
       ("type", type)]]
  | .other => .ok [make .unknown c.head []]

/-- The members among the children of an object type or of the body of an interface. -/
def typeMembers (source : Source) (children : List ReadNode) : Decoded Json := do
  let groups ← decodeEach (typeMember source) (Cst.named children)
  return .arr groups.flatten

/-! ## Types -/

/-- Reads a node as a type. A union or an intersection lists its operands however they are nested;
an annotation stands for the type in it. -/
def typeNode (source : Source) (head : CstHead) (children : List ReadNode) :
    Decoded (Option Json) :=
  let first := (Cst.named children).head?
  match TypeShape.ofType head.type with
  | .wrapper => typeOf? first
  | .name => do
    let name ← identifier source head
    return some (make .typeReference head [("typeName", name)])
  | .dottedName => do
    let name ← entityName source head
    return some (make .typeReference head [("typeName", name)])
  | .generic => do
    let name ← match Cst.childAt? "name" children with
      | none => .ok none
      | some c => entityName source c.head
    let arguments ← match Cst.childAt? "type_arguments" children with
      | none => .ok none
      | some list => some <$> typeList (Cst.named list.children)
    return some (make .typeReference head [("typeName", name), ("typeArguments", arguments)])
  | .predefined => do
    let text ← source.trimmedText head
    return some (make (predefinedKind text) head [])
  | .array => do
    let element ← typeOf? first
    return some (make .arrayType head [("elementType", element)])
  | .union => do
    let types ← typeList (Cst.operandsAmong head.type children)
    return some (make .unionType head [("types", some types)])
  | .intersection => do
    let types ← typeList (Cst.operandsAmong head.type children)
    return some (make .intersectionType head [("types", some types)])
  | .parenthesized => do
    let inner ← typeOf? first
    return some (make .parenthesizedType head [("type", inner)])
  | .tuple => do
    let elements ← typeList (Cst.named children)
    return some (make .tupleType head [("elements", some elements)])
  | .literal => do
    let literal ← expressionOf? first
    return some (make .literalType head [("literal", literal)])
  | .members => do
    let members ← typeMembers source children
    return some (make .typeLiteral head [("members", some members)])
  | .function => do
    let parameters ← parameters source (Cst.childAt? "parameters" children)
    let result ← typeOf? (Cst.childAt? "return_type" children)
    return some (make .functionType head [("parameters", some parameters), ("type", result)])
  | .other => .ok (some (make .unknown head []))

end DeclCatalogue.Tree
