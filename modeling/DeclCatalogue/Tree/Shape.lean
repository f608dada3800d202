import DeclCatalogue.Node.Modifier

/-!
# What a concrete node stands for

The types of concrete nodes that mean something in a given place: as an expression, as a binding,
as a type, as a member or as a statement. All other types fall under `other`.
-/

namespace DeclCatalogue.Tree

/-- What a node is as an expression. -/
inductive ExpressionShape where
  | name | memberAccess | parenthesized | text | number | other
  deriving DecidableEq, Repr

/-- The shape of an expression node. -/
def ExpressionShape.ofType (type : String) : ExpressionShape :=
  match type with
  | "identifier" | "property_identifier" | "type_identifier" => .name
  | "member_expression" => .memberAccess
  | "parenthesized_expression" => .parenthesized
  | "string" => .text
  | "number" => .number
  | _ => .other

/-- What a node is as the name of a property. -/
inductive PropertyShape where
  | name | text | number | other
  deriving DecidableEq, Repr

/-- The shape of the name of a property. -/
def PropertyShape.ofType (type : String) : PropertyShape :=
  match type with
  | "string" => .text
  | "number" => .number
  | "property_identifier" | "private_property_identifier" | "identifier" => .name
  | _ => .other

/-- What a node is as the left side of a binding. -/
inductive BindingShape where
  | name | objectPattern | arrayPattern | rest | other
  deriving DecidableEq, Repr

/-- The shape of the left side of a binding. -/
def BindingShape.ofType (type : String) : BindingShape :=
  match type with
  | "identifier" => .name
  | "object_pattern" => .objectPattern
  | "array_pattern" => .arrayPattern
  | "rest_pattern" => .rest
  | _ => .other

/-- What a node is as a type. -/
inductive TypeShape where
  | wrapper | name | dottedName | generic | predefined | array | union | intersection
  | parenthesized | tuple | literal | members | function | other
  deriving DecidableEq, Repr

/-- The shape of a type node. -/
def TypeShape.ofType (type : String) : TypeShape :=
  match type with
  | "type_annotation" | "constraint" | "default_type" => .wrapper
  | "type_identifier" | "identifier" => .name
  | "nested_type_identifier" => .dottedName
  | "generic_type" => .generic
  | "predefined_type" => .predefined
  | "array_type" => .array
  | "union_type" => .union
  | "intersection_type" => .intersection
  | "parenthesized_type" => .parenthesized
  | "tuple_type" => .tuple
  | "literal_type" => .literal
  | "object_type" => .members
  | "function_type" => .function
  | _ => .other

/-- The kind of a predefined type by its text. -/
def predefinedKind (text : String) : SyntaxKind :=
  match text with
  | "any" => .anyKeyword
  | "boolean" => .booleanKeyword
  | "never" => .neverKeyword
  | "number" => .numberKeyword
  | "object" => .objectKeyword
  | "string" => .stringKeyword
  | "symbol" => .symbolKeyword
  | "undefined" => .undefinedKeyword
  | "unknown" => .unknownKeyword
  | "bigint" => .bigIntKeyword
  | "void" => .voidKeyword
  | _ => .unknown

/-- What a node is among the members of a class. -/
inductive ClassMemberShape where
  | ignored | method | property | other
  deriving DecidableEq, Repr

/-- The shape of a class member. -/
def ClassMemberShape.ofType (type : String) : ClassMemberShape :=
  match type with
  | "comment" | "decorator" => .ignored
  | "method_definition" | "abstract_method_signature" | "method_signature" => .method
  | "public_field_definition" | "property_signature" => .property
  | _ => .other

/-- What a node is among the members of an interface or an object type. -/
inductive TypeMemberShape where
  | ignored | property | method | other
  deriving DecidableEq, Repr

/-- The shape of a member of an interface or an object type. -/
def TypeMemberShape.ofType (type : String) : TypeMemberShape :=
  match type with
  | "comment" => .ignored
  | "property_signature" => .property
  | "method_signature" => .method
  | _ => .other

/-- What a node is as a statement. A plain statement declares nothing and is kept by its kind
alone. -/
inductive StatementShape where
  | function | classBody | interface | typeAlias | enumeration | variableList | importing
  | exporting | ambient | module | expression | comment
  | plain (kind : SyntaxKind)
  | other
  deriving DecidableEq, Repr

/-- The shape of a statement. -/
def StatementShape.ofType (type : String) : StatementShape :=
  match type with
  | "function_declaration" | "generator_function_declaration" | "function_signature" => .function
  | "class_declaration" | "abstract_class_declaration" => .classBody
  | "interface_declaration" => .interface
  | "type_alias_declaration" => .typeAlias
  | "enum_declaration" => .enumeration
  | "lexical_declaration" | "variable_declaration" => .variableList
  | "import_statement" => .importing
  | "export_statement" => .exporting
  | "ambient_declaration" => .ambient
  | "module" | "internal_module" => .module
  | "expression_statement" => .expression
  | "comment" => .comment
  | "empty_statement" => .plain .emptyStatement
  | "if_statement" => .plain .ifStatement
  | "do_statement" => .plain .doStatement
  | "while_statement" => .plain .whileStatement
  | "for_statement" => .plain .forStatement
  | "for_in_statement" => .plain .forInStatement
  | "return_statement" => .plain .returnStatement
  | "switch_statement" => .plain .switchStatement
  | "throw_statement" => .plain .throwStatement
  | "try_statement" => .plain .tryStatement
  | _ => .other

/-- The modifier that a keyword stands for. The keyword for constants is no modifier. -/
def modifierOf? (keyword : String) : Option ModifierKind :=
  match keyword with
  | "export" => some .exported
  | "default" => some .default
  | "declare" => some .declared
  | "abstract" => some .abstract
  | "async" => some .async
  | "static" => some .static
  | "readonly" => some .readonly
  | "override" => some .override
  | "public" => some .isPublic
  | "private" => some .isPrivate
  | "protected" => some .isProtected
  | _ => none

end DeclCatalogue.Tree
