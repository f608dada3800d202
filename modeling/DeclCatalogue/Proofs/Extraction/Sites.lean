import DeclCatalogue.Extraction

/-!
# The declarations of a source

Which declarations a source has, in the order of the source and said of its concrete tree alone. A
`DeclarationSite` is a function, interface, type alias or class at the place of a statement: with
its name, the context that it stands in, and whether it is exported.

Statements stand at the top of the source, in the bodies of modules, and in statements that wrap
others: exports, ambient declarations, and expressions around a single module. An export makes what
it wraps exported, down to the next body. The context of a body is the name of its module: the last
segment of a dotted name, a text without its quotes, or `global` for the global scope; behind a
prefix for a namespace. A module without a name has no body to look into, and nothing is looked for
in the bodies of functions and classes or in statements of other kinds.
-/

namespace DeclCatalogue

/-- A declaration at the place of a statement. -/
structure DeclarationSite where
  heading : Heading
  /-- The text of the name, empty for a declaration without one. -/
  name : String
  context : String
  exported : Bool
  deriving DecidableEq, Repr

/-- A push records a declaration under its context, by its kind, its name and whether it is
exported. -/
def DeclarationSite.RecordedBy (site : DeclarationSite) (p : Push) : Prop :=
  ∃ record : Declaration, p = .declaration site.heading record (.str site.context) ∧
    record.context = site.context ∧ record.kind = site.heading.kind ∧
    record.name.val = site.name ∧ record.exported = site.exported

namespace Sites

variable {α : Type}

/-- The declarations of a statement in a context, exported from there or not. -/
abbrev InContext := String → Bool → List DeclarationSite

/-- A concrete node whose declarations and those of its descendants are known. -/
abbrev SiteNode := Cst InContext

/-! ## Single declarations -/

/-- The text of the child that is held as the name. -/
def nameText (source : Source) (children : List (Cst α)) : String :=
  match source.textOf? (Cst.childAt? "name" children) with
  | .ok text => text
  | .error _ => ""

/-- Whether a child is an export modifier. -/
def isExport (source : Source) (c : Cst α) : Bool :=
  match Tree.modifierAt? source c with
  | .ok (some .exported) => true
  | _ => false

/-- Whether an export modifier is among children. -/
def carriesExport (source : Source) (children : List (Cst α)) : Bool :=
  children.any (isExport source)

/-- A declaration with the given children. -/
def single (source : Source) (heading : Heading) (children : List (Cst α)) : InContext :=
  fun context exported =>
    [⟨heading, nameText source children, context, exported || carriesExport source children⟩]

/-! ## Bodies and modules -/

/-- The declarations of the statements in a body, if there is a body. -/
def inBody (body : Option SiteNode) (context : String) : List DeclarationSite :=
  (Cst.named (Cst.childrenOf body)).flatMap fun c => c.note context false

/-- The name of a module that its body goes by. -/
def moduleName? (source : Source) (nameNode : CstHead) : Option String :=
  match source.text nameNode with
  | .error _ => none
  | .ok text =>
    if nameNode.type = "string" then some (unquote text) else (segments text).getLast?

/-- The declarations in a module or a namespace. -/
def inModule (source : Source) (namespacePrefix : String) (head : CstHead)
    (children : List SiteNode) : List DeclarationSite :=
  match (Cst.childAt? "name" children).bind fun c => moduleName? source c.head with
  | none => []
  | some name =>
    inBody (Cst.childAt? "body" children)
      (if head.type = "internal_module" then namespacePrefix ++ name else name)

/-! ## Statements around statements -/

/-- The declarations in an ambient declaration. -/
def inAmbient (children : List SiteNode) : InContext := fun context exported =>
  if children.any fun c => c.type = "global" then
    inBody (Cst.childOfType? ["statement_block"] children) "global"
  else
    (Cst.withoutComments (Cst.named children)).flatMap fun c => c.note context exported

/-- The value of an export. -/
def valueOf? (children : List (Cst α)) : Option (Cst α) :=
  Cst.childAt? "value" children
    <|> if (Cst.tokens children).contains "=" then
      (Cst.withoutComments (Cst.named children)).head?
    else none

/-- The declaration that an exported value is: a class or a function with a name is one. -/
def ofValue (source : Source) (value : Cst α) (context : String) : List DeclarationSite :=
  let hasName := (Cst.childAt? "name" value.children).isSome
  if (value.type = "class" ∨ value.type = "class_declaration") ∧ hasName then
    single source .classes value.children context true
  else if (value.type = "function" ∨ value.type = "function_expression"
      ∨ value.type = "function_declaration") ∧ hasName then
    single source .functions value.children context true
  else []

/-- The declarations in an export. -/
def inExport (source : Source) (children : List SiteNode) (context : String) :
    List DeclarationSite :=
  match Cst.childAt? "declaration" children with
  | some declaration => declaration.note context true
  | none =>
    match valueOf? children with
    | some value => ofValue source value context
    | none => []

/-- The declarations in an expression that is a single module. -/
def inExpression (children : List SiteNode) : InContext := fun context exported =>
  match Cst.withoutComments (Cst.named children) with
  | [only] =>
    if only.type = "internal_module" ∨ only.type = "module" then only.note context exported else []
  | _ => []

/-! ## Trees -/

/-- The declarations of a node as a statement, from those of its children. -/
def ofStatement (source : Source) (namespacePrefix : String) (head : CstHead)
    (children : List SiteNode) : InContext := fun context exported =>
  match Tree.StatementShape.ofType head.type with
  | .function => single source .functions children context exported
  | .classBody => single source .classes children context exported
  | .interface => single source .interfaces children context exported
  | .typeAlias => single source .types children context exported
  | .exporting => inExport source children context
  | .ambient => inAmbient children context exported
  | .module => inModule source namespacePrefix head children
  | .expression => inExpression children context exported
  | _ => []

/-- A concrete tree with the declarations of every node. -/
def readTree (source : Source) (namespacePrefix : String) (tree : SourceTree) : SiteNode :=
  Cst.annotate (ofStatement source namespacePrefix) tree

section Tree

variable (source : Source) (namespacePrefix : String) (c : SourceTree)

@[simp] theorem head_readTree : (readTree source namespacePrefix c).head = c.head :=
  Cst.head_annotate _ c

theorem children_readTree : (readTree source namespacePrefix c).children =
    c.children.map (readTree source namespacePrefix) :=
  Cst.children_annotate _ c

theorem note_readTree : (readTree source namespacePrefix c).note =
    ofStatement source namespacePrefix c.head (c.children.map (readTree source namespacePrefix)) :=
  Cst.note_annotate _ c

end Tree

end Sites

/-- The declarations of a source, in order, whose statements at the top stand in the given
context. -/
def declarationSites (source : Source) (namespacePrefix context : String) (tree : SourceTree) :
    List DeclarationSite :=
  (Cst.named (Sites.readTree source namespacePrefix tree).children).flatMap fun c =>
    c.note context false

end DeclCatalogue
