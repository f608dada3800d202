/-!
# Kinds and flags of syntax nodes

The kinds of node that a syntax tree can hold, each with a numeric tag and a name, and the bits of
a node's flags. Trees of other producers may number their kinds otherwise; see
`DeclCatalogue.KindTable`.
-/

namespace DeclCatalogue

/-- The kinds of syntax node. -/
inductive SyntaxKind where
  | unknown | endOfFileToken | numericLiteral | stringLiteral | questionToken | identifier
  | constKeyword | defaultKeyword | exportKeyword | nullKeyword | voidKeyword | privateKeyword
  | protectedKeyword | publicKeyword | staticKeyword | abstractKeyword | anyKeyword | asyncKeyword
  | booleanKeyword | declareKeyword | neverKeyword | readonlyKeyword | numberKeyword
  | objectKeyword | stringKeyword | symbolKeyword | undefinedKeyword | unknownKeyword
  | bigIntKeyword | overrideKeyword | qualifiedName | typeParameter | parameter | decorator
  | propertySignature | propertyDeclaration | methodSignature | methodDeclaration | constructor
  | typeReference | functionType | typeLiteral | arrayType | tupleType | unionType
  | intersectionType | parenthesizedType | literalType | objectBindingPattern
  | arrayBindingPattern | propertyAccessExpression | expressionWithTypeArguments | block
  | emptyStatement | variableStatement | expressionStatement | ifStatement | doStatement
  | whileStatement | forStatement | forInStatement | returnStatement | switchStatement
  | throwStatement | tryStatement | variableDeclaration | variableDeclarationList
  | functionDeclaration | classDeclaration | interfaceDeclaration | typeAliasDeclaration
  | enumDeclaration | moduleDeclaration | moduleBlock | importEqualsDeclaration
  | importDeclaration | importClause | namespaceImport | namedImports | importSpecifier
  | exportAssignment | exportDeclaration | namedExports | namespaceExport | exportSpecifier
  | heritageClause | sourceFile
  deriving DecidableEq, Repr

namespace SyntaxKind

/-- All kinds, by increasing tag. -/
def all : List SyntaxKind :=
  [.unknown, .endOfFileToken, .numericLiteral, .stringLiteral, .questionToken, .identifier,
   .constKeyword, .defaultKeyword, .exportKeyword, .nullKeyword, .voidKeyword, .privateKeyword,
   .protectedKeyword, .publicKeyword, .staticKeyword, .abstractKeyword, .anyKeyword,
   .asyncKeyword, .booleanKeyword, .declareKeyword, .neverKeyword, .readonlyKeyword,
   .numberKeyword, .objectKeyword, .stringKeyword, .symbolKeyword, .undefinedKeyword,
   .unknownKeyword, .bigIntKeyword, .overrideKeyword, .qualifiedName, .typeParameter, .parameter,
   .decorator, .propertySignature, .propertyDeclaration, .methodSignature, .methodDeclaration,
   .constructor, .typeReference, .functionType, .typeLiteral, .arrayType, .tupleType, .unionType,
   .intersectionType, .parenthesizedType, .literalType, .objectBindingPattern,
   .arrayBindingPattern, .propertyAccessExpression, .expressionWithTypeArguments, .block,
   .emptyStatement, .variableStatement, .expressionStatement, .ifStatement, .doStatement,
   .whileStatement, .forStatement, .forInStatement, .returnStatement, .switchStatement,
   .throwStatement, .tryStatement, .variableDeclaration, .variableDeclarationList,
   .functionDeclaration, .classDeclaration, .interfaceDeclaration, .typeAliasDeclaration,
   .enumDeclaration, .moduleDeclaration, .moduleBlock, .importEqualsDeclaration,
   .importDeclaration, .importClause, .namespaceImport, .namedImports, .importSpecifier,
   .exportAssignment, .exportDeclaration, .namedExports, .namespaceExport, .exportSpecifier,
   .heritageClause, .sourceFile]

/-- The tag that stands for a kind in a tree. -/
def code : SyntaxKind → Nat
  | .unknown => 0
  | .endOfFileToken => 1
  | .numericLiteral => 9
  | .stringLiteral => 11
  | .questionToken => 58
  | .identifier => 80
  | .constKeyword => 87
  | .defaultKeyword => 90
  | .exportKeyword => 95
  | .nullKeyword => 106
  | .voidKeyword => 116
  | .privateKeyword => 123
  | .protectedKeyword => 124
  | .publicKeyword => 125
  | .staticKeyword => 126
  | .abstractKeyword => 128
  | .anyKeyword => 133
  | .asyncKeyword => 134
  | .booleanKeyword => 136
  | .declareKeyword => 138
  | .neverKeyword => 146
  | .readonlyKeyword => 148
  | .numberKeyword => 150
  | .objectKeyword => 151
  | .stringKeyword => 154
  | .symbolKeyword => 155
  | .undefinedKeyword => 157
  | .unknownKeyword => 159
  | .bigIntKeyword => 163
  | .overrideKeyword => 164
  | .qualifiedName => 166
  | .typeParameter => 168
  | .parameter => 169
  | .decorator => 170
  | .propertySignature => 171
  | .propertyDeclaration => 172
  | .methodSignature => 173
  | .methodDeclaration => 174
  | .constructor => 176
  | .typeReference => 183
  | .functionType => 184
  | .typeLiteral => 187
  | .arrayType => 188
  | .tupleType => 189
  | .unionType => 192
  | .intersectionType => 193
  | .parenthesizedType => 196
  | .literalType => 201
  | .objectBindingPattern => 206
  | .arrayBindingPattern => 207
  | .propertyAccessExpression => 211
  | .expressionWithTypeArguments => 233
  | .block => 241
  | .emptyStatement => 242
  | .variableStatement => 243
  | .expressionStatement => 244
  | .ifStatement => 245
  | .doStatement => 246
  | .whileStatement => 247
  | .forStatement => 248
  | .forInStatement => 249
  | .returnStatement => 253
  | .switchStatement => 255
  | .throwStatement => 257
  | .tryStatement => 258
  | .variableDeclaration => 260
  | .variableDeclarationList => 261
  | .functionDeclaration => 262
  | .classDeclaration => 263
  | .interfaceDeclaration => 264
  | .typeAliasDeclaration => 265
  | .enumDeclaration => 266
  | .moduleDeclaration => 267
  | .moduleBlock => 268
  | .importEqualsDeclaration => 271
  | .importDeclaration => 272
  | .importClause => 273
  | .namespaceImport => 274
  | .namedImports => 275
  | .importSpecifier => 276
  | .exportAssignment => 277
  | .exportDeclaration => 278
  | .namedExports => 279
  | .namespaceExport => 280
  | .exportSpecifier => 281
  | .heritageClause => 298
  | .sourceFile => 312

/-- The name of a kind. -/
def name : SyntaxKind → String
  | .unknown => "Unknown"
  | .endOfFileToken => "EndOfFileToken"
  | .numericLiteral => "NumericLiteral"
  | .stringLiteral => "StringLiteral"
  | .questionToken => "QuestionToken"
  | .identifier => "Identifier"
  | .constKeyword => "ConstKeyword"
  | .defaultKeyword => "DefaultKeyword"
  | .exportKeyword => "ExportKeyword"
  | .nullKeyword => "NullKeyword"
  | .voidKeyword => "VoidKeyword"
  | .privateKeyword => "PrivateKeyword"
  | .protectedKeyword => "ProtectedKeyword"
  | .publicKeyword => "PublicKeyword"
  | .staticKeyword => "StaticKeyword"
  | .abstractKeyword => "AbstractKeyword"
  | .anyKeyword => "AnyKeyword"
  | .asyncKeyword => "AsyncKeyword"
  | .booleanKeyword => "BooleanKeyword"
  | .declareKeyword => "DeclareKeyword"
  | .neverKeyword => "NeverKeyword"
  | .readonlyKeyword => "ReadonlyKeyword"
  | .numberKeyword => "NumberKeyword"
  | .objectKeyword => "ObjectKeyword"
  | .stringKeyword => "StringKeyword"
  | .symbolKeyword => "SymbolKeyword"
  | .undefinedKeyword => "UndefinedKeyword"
  | .unknownKeyword => "UnknownKeyword"
  | .bigIntKeyword => "BigIntKeyword"
  | .overrideKeyword => "OverrideKeyword"
  | .qualifiedName => "QualifiedName"
  | .typeParameter => "TypeParameter"
  | .parameter => "Parameter"
  | .decorator => "Decorator"
  | .propertySignature => "PropertySignature"
  | .propertyDeclaration => "PropertyDeclaration"
  | .methodSignature => "MethodSignature"
  | .methodDeclaration => "MethodDeclaration"
  | .constructor => "Constructor"
  | .typeReference => "TypeReference"
  | .functionType => "FunctionType"
  | .typeLiteral => "TypeLiteral"
  | .arrayType => "ArrayType"
  | .tupleType => "TupleType"
  | .unionType => "UnionType"
  | .intersectionType => "IntersectionType"
  | .parenthesizedType => "ParenthesizedType"
  | .literalType => "LiteralType"
  | .objectBindingPattern => "ObjectBindingPattern"
  | .arrayBindingPattern => "ArrayBindingPattern"
  | .propertyAccessExpression => "PropertyAccessExpression"
  | .expressionWithTypeArguments => "ExpressionWithTypeArguments"
  | .block => "Block"
  | .emptyStatement => "EmptyStatement"
  | .variableStatement => "VariableStatement"
  | .expressionStatement => "ExpressionStatement"
  | .ifStatement => "IfStatement"
  | .doStatement => "DoStatement"
  | .whileStatement => "WhileStatement"
  | .forStatement => "ForStatement"
  | .forInStatement => "ForInStatement"
  | .returnStatement => "ReturnStatement"
  | .switchStatement => "SwitchStatement"
  | .throwStatement => "ThrowStatement"
  | .tryStatement => "TryStatement"
  | .variableDeclaration => "VariableDeclaration"
  | .variableDeclarationList => "VariableDeclarationList"
  | .functionDeclaration => "FunctionDeclaration"
  | .classDeclaration => "ClassDeclaration"
  | .interfaceDeclaration => "InterfaceDeclaration"
  | .typeAliasDeclaration => "TypeAliasDeclaration"
  | .enumDeclaration => "EnumDeclaration"
  | .moduleDeclaration => "ModuleDeclaration"
  | .moduleBlock => "ModuleBlock"
  | .importEqualsDeclaration => "ImportEqualsDeclaration"
  | .importDeclaration => "ImportDeclaration"
  | .importClause => "ImportClause"
  | .namespaceImport => "NamespaceImport"
  | .namedImports => "NamedImports"
  | .importSpecifier => "ImportSpecifier"
  | .exportAssignment => "ExportAssignment"
  | .exportDeclaration => "ExportDeclaration"
  | .namedExports => "NamedExports"
  | .namespaceExport => "NamespaceExport"
  | .exportSpecifier => "ExportSpecifier"
  | .heritageClause => "HeritageClause"
  | .sourceFile => "SourceFile"

/-- The words of a name that is written in one, each starting with a capital letter. -/
def capitalWords : List Char → List (List Char)
  | [] => []
  | c :: rest =>
    match capitalWords rest, rest with
    | [], _ => [[c]]
    | word :: words, d :: _ => if d.isUpper then [c] :: word :: words else (c :: word) :: words
    | word :: words, [] => (c :: word) :: words

/-- The name of a kind as a constant: its words in capital letters, joined by underscores. -/
def constant (k : SyntaxKind) : String :=
  String.ofList (['_'].intercalate ((capitalWords k.name.toList).map (·.map Char.toUpper)))

/-- The kind with a tag. -/
def ofCode? (code : Int) : Option SyntaxKind :=
  all.find? fun k => (k.code : Int) = code

theorem mem_all (k : SyntaxKind) : k ∈ all := by
  cases k <;> decide

theorem code_injective {j k : SyntaxKind} (h : j.code = k.code) : j = k := by
  have table : ∀ a ∈ all, ∀ b ∈ all, a.code = b.code → a = b := by decide +kernel
  exact table j (mem_all j) k (mem_all k) h

end SyntaxKind

/-- The bits of a node's flags. -/
inductive NodeFlag where
  | letList | constList | nestedNamespace | synthesized | namespaceModule | exportContext
  | globalAugmentation
  deriving DecidableEq, Repr

namespace NodeFlag

/-- All flags, by increasing bit. -/
def all : List NodeFlag :=
  [.letList, .constList, .nestedNamespace, .synthesized, .namespaceModule, .exportContext,
   .globalAugmentation]

/-- The number with only the flag's bit set. -/
def bit : NodeFlag → Nat
  | .letList => 1
  | .constList => 2
  | .nestedNamespace => 8
  | .synthesized => 16
  | .namespaceModule => 32
  | .exportContext => 128
  | .globalAugmentation => 1024

/-- The name of a flag as a constant. -/
def constant : NodeFlag → String
  | .letList => "LET"
  | .constList => "CONST"
  | .nestedNamespace => "NESTED_NAMESPACE"
  | .synthesized => "SYNTHESIZED"
  | .namespaceModule => "NAMESPACE"
  | .exportContext => "EXPORT_CONTEXT"
  | .globalAugmentation => "GLOBAL_AUGMENTATION"

end NodeFlag

end DeclCatalogue
