import DeclCatalogue.Proofs.Extraction.Visits
import DeclCatalogue.Proofs.Tree.TypeName

/-!
# The names that declarations are recorded under

A declaration goes by the text of its name. The resolver of names has other fields to fall back on,
and of these a tree that is built has one: the type of a function or of an alias. So a declaration
without a name is recorded under the name that its type refers to, if it refers to one, and ends
the extraction otherwise. `Declared.recordedName` says which name that is for a declaration in the
concrete tree, and `extractSource_recordedNames` that there is no other way into the catalogue.

`IsReadAs` lists what a node at the place of a statement can be read as, and has one case for each
of the ways in which a visit can end.
-/

namespace DeclCatalogue

open Json (lookup)
open Node (asName? ownName? fullName? resolvedName?)
open DeclCatalogue.Tree (make flagged Yields Built RefersBy referredName AnyNode)

/-! ## Declarations in a concrete tree -/

/-- A declaration at the place of a statement: what it is recorded as, its node, and the child that
is built into its type, if it has one. -/
structure Declared where
  heading : Heading
  node : SourceTree
  type : Option SourceTree

/-- The declaration that an exported value is. A function without a name is exported like any other
expression, and its type is not kept. -/
def exportedDeclaration? (value : SourceTree) : Option Declared :=
  if value.type = "class" ∨ value.type = "class_declaration" then some ⟨.classes, value, none⟩
  else if value.type = "function" ∨ value.type = "function_expression"
      ∨ value.type = "function_declaration" then
    some ⟨.functions, value,
      if (Cst.childAt? "name" value.children).isSome then
        Cst.childAt? "return_type" value.children
      else none⟩
  else none

/-- The declaration that a node of a shape is. -/
def declaredAs? (shape : Tree.StatementShape) (c : SourceTree) : Option Declared :=
  match shape with
  | .function => some ⟨.functions, c, Cst.childAt? "return_type" c.children⟩
  | .classBody => some ⟨.classes, c, none⟩
  | .interface => some ⟨.interfaces, c, none⟩
  | .typeAlias => some ⟨.types, c, Cst.childAt? "value" c.children⟩
  | .exporting =>
    if (Cst.childAt? "declaration" c.children).isSome then none
    else (Sites.valueOf? c.children).bind exportedDeclaration?
  | _ => none

/-- The declaration that a node is at the place of a statement. -/
def declaredAt? (c : SourceTree) : Option Declared :=
  declaredAs? (Tree.StatementShape.ofType c.type) c

theorem declaredAt?_of_shape {c : SourceTree} {shape : Tree.StatementShape}
    (h : Tree.StatementShape.ofType c.type = shape) : declaredAt? c = declaredAs? shape c :=
  congrArg (declaredAs? · c) h

namespace Declared

/-- The text of the name of a declaration, empty if it has none. -/
def nameText (d : Declared) (source : Source) : String :=
  Sites.nameText source d.node.children

/-- The segments of the name that the type of a declaration refers to. -/
def typeName (d : Declared) (source : Source) : List String :=
  (d.type.map (referredName source)).getD []

/-- The name that a declaration is recorded under: the text of its name, else the name that its type
refers to. Empty if there is neither. -/
def recordedName (d : Declared) (source : Source) : String :=
  if d.nameText source = "" then ".".intercalate (d.typeName source) else d.nameText source

theorem isWellFormed_recordedName (d : Declared) (source : Source) :
    Text.isWellFormed (d.recordedName source) = true := by
  unfold recordedName typeName
  split
  · refine Text.isWellFormed_intercalate fun name hname => ?_
    cases htype : d.type with
    | none =>
      rw [htype] at hname
      cases hname
    | some type =>
      rw [htype] at hname
      exact (Tree.areNames_referredName source type name hname).2
  · exact Sites.isWellFormed_nameText source _

end Declared

/-! ## Resolving names -/

/-- A name is looked for in one place after the other. -/
theorem Node.IsNameOrNone.bind_orElse {a : Option Json} (h : IsNameOrNone a) (b : Option Json) :
    (a <|> b).bind asName? = (a.bind asName? <|> b.bind asName?) := by
  cases a with
  | none => rfl
  | some v =>
    obtain ⟨name, rfl⟩ := h v rfl
    show asName? (nameText name) = (asName? (nameText name) <|> b.bind asName?)
    rw [asName?_nameText]
    rfl

/-- The three places in which the name of a node that keeps to the schema is looked for. -/
theorem Node.resolvedName?_eq {fields : Fields} (h : (Json.obj fields).EachObject Tree.Conforms) :
    resolvedName? fields =
      (ownName? (lookup "name" fields) <|> fullName? ((lookup "type" fields).field "typeName") <|>
        ownName? (lookup "moduleSpecifier" fields)) := by
  have htexts := hasNameTexts_of_conforms h
  have hname := isNameOrNone_identifierText (htexts.lookup "name")
  have htype := isNameOrNone_entityName (eachObject_field (htexts.lookup "type") "typeName")
  unfold resolvedName? declaredName?
  rw [hname.bind_orElse, htype.bind_orElse]
  rfl

/-- A value whose type refers to the name made of the segments, and that names no module. -/
structure Tree.TypedBy (names : List String) (v : Json) : Prop where
  type : RefersBy names (v.field "type")
  specifier : v.field "moduleSpecifier" = .null

namespace Tree

variable {source : Source} {kind : SyntaxKind} {head : CstHead} {cs : List SourceTree}
  {inherited : List ModifierKind}

theorem typedBy_make {fields : List (String × Option Json)} {type : Option Json}
    {names : List String} (hkeys : (fields.map Prod.fst).Nodup) (htype : ("type", type) ∈ fields)
    (hspecifier : "moduleSpecifier" ∉ fields.map Prod.fst)
    (h : RefersBy names (type.getD .null)) : TypedBy names (make kind head fields) := by
  have hfield : (make kind head fields).field "type" = type.getD .null :=
    lookup_present_of_mem hkeys htype
  exact ⟨hfield ▸ h, lookup_present_of_not_mem hspecifier⟩

/-- Without a type there is nothing to refer to. -/
theorem typedBy_nil {fields : List (String × Option Json)} (htype : "type" ∉ fields.map Prod.fst)
    (hspecifier : "moduleSpecifier" ∉ fields.map Prod.fst) :
    TypedBy [] (make kind head fields) := by
  have hfield : (make kind head fields).field "type" = .null := lookup_present_of_not_mem htype
  refine ⟨⟨List.forall_mem_nil _, head, ?_⟩, lookup_present_of_not_mem hspecifier⟩
  rw [hfield]
  rfl

/-- The type of a function is that of what it returns. -/
theorem functionDeclaration_typed :
    Yields (functionDeclaration source head (cs.map (readTree source)) inherited).result
      (TypedBy (((Cst.childAt? "return_type" cs).map (referredName source)).getD [])) := by
  unfold functionDeclaration
  simp only [Built.result_bind, Built.result_lift, Built.result_pure]
  refine (yields_any _).bind fun modifiers _ => (yields_any _).bind fun name _ => ?_
  refine (yields_any _).bind fun typeParameters _ => (yields_any _).bind fun parameters _ => ?_
  rw [childAt?_readTree]
  refine (typeOf_reference source _).bind fun type htype => (yields_any _).bind fun body _ => ?_
  exact yields_ok (typedBy_make (by simp) (by simp) (by simp) htype)

theorem classDeclaration_typed {children : List ReadNode} :
    Yields (classDeclaration source head children inherited).result (TypedBy []) := by
  unfold classDeclaration
  simp only [Built.result_bind, Built.result_lift, Built.result_pure]
  refine (yields_any _).bind fun modifiers _ => (yields_any _).bind fun name _ => ?_
  refine (yields_any _).bind fun typeParameters _ => (yields_any _).bind fun members _ => ?_
  exact yields_ok (typedBy_nil (by simp) (by simp))

theorem interfaceDeclaration_typed {children : List ReadNode} :
    Yields (interfaceDeclaration source head children inherited) (TypedBy []) := by
  unfold interfaceDeclaration
  refine (yields_any _).bind fun modifiers _ => (yields_any _).bind fun name _ => ?_
  refine (yields_any _).bind fun typeParameters _ => (yields_any _).bind fun members _ => ?_
  exact yields_pure (typedBy_nil (by simp) (by simp))

/-- The type of an alias is what it stands for. -/
theorem typeAliasDeclaration_typed :
    Yields (typeAliasDeclaration source head (cs.map (readTree source)) inherited)
      (TypedBy (((Cst.childAt? "value" cs).map (referredName source)).getD [])) := by
  unfold typeAliasDeclaration
  refine (yields_any _).bind fun modifiers _ => (yields_any _).bind fun name _ => ?_
  refine (yields_any _).bind fun typeParameters _ => ?_
  rw [childAt?_readTree]
  refine (typeOf_reference source _).bind fun type htype => ?_
  exact yields_pure (typedBy_make (by simp) (by simp) (by simp) htype)

end Tree

/-! ## What statements are read as -/

/-- What a node at the place of a statement is read as, if it is one by itself. -/
inductive IsReadAs (source : Source) (c : SourceTree) (fields : Fields) : Prop where
  /-- A declaration that is recorded by its name. -/
  | declaration (d : Declared) : declaredAt? c = some d →
      lookup "kind" fields = .int d.heading.syntaxKind.code →
      resolvedName? fields = asName? (.str (d.recordedName source)) → IsReadAs source c fields
  /-- A declaration without a name that is exported as an expression. -/
  | expression (d : Declared) : declaredAt? c = some d → d.recordedName source = "" →
      lookup "kind" fields = .int SyntaxKind.exportAssignment.code →
      fullName? (lookup "expression" fields) = none → IsReadAs source c fields
  /-- A module without a usable name. -/
  | module : declaredAt? c = none →
      lookup "kind" fields = .int SyntaxKind.moduleDeclaration.code →
      ownName? (lookup "name" fields) = none → IsReadAs source c fields
  /-- Anything else. -/
  | other (kind : SyntaxKind) : declaredAt? c = none → lookup "kind" fields = .int kind.code →
      kind ∉ SyntaxKind.declaring → IsReadAs source c fields

/-- A list of one node that is read off another one. -/
def AreReadAs (source : Source) (c : SourceTree) (us : List Json) : Prop :=
  ∃ fields, us = [.obj fields] ∧ IsReadAs source c fields

section Reading

variable {source : Source} {c : SourceTree} {d : Declared} {inherited : List ModifierKind}

theorem areReadAs_other (hd : declaredAt? c = none) {kind : SyntaxKind}
    (hkind : kind ∉ SyntaxKind.declaring) (head : CstHead)
    (fields : List (String × Option Json)) : AreReadAs source c [make kind head fields] :=
  ⟨_, rfl, .other kind hd rfl hkind⟩

/-- What is built into a declaration goes by the name that the declaration is recorded under. -/
theorem declaration_areReadAs (hd : declaredAt? c = some d) {x : Decoded Json} {exported : Bool}
    (hok : Yields x AnyNode)
    (hdeclares : Yields x (Tree.IsDeclaration d.heading
      (Sites.nameText source (d.node.children.map (Tree.readTree source))) exported))
    (htyped : Yields x (Tree.TypedBy (d.typeName source))) :
    Yields x fun v => AreReadAs source c [v] := by
  intro v hv
  obtain ⟨fields, rfl, hdeclared⟩ := hdeclares v hv
  rw [Sites.nameText_map Tree.head_readTree] at hdeclared
  obtain ⟨⟨hnames, nameHead, htype⟩, hspecifier⟩ := htyped _ hv
  refine ⟨fields, rfl, .declaration d hd hdeclared.kind ?_⟩
  have htype : (lookup "type" fields).field "typeName" = _ := htype
  have hspecifier : lookup "moduleSpecifier" fields = .null := hspecifier
  rw [Node.resolvedName?_eq (hok _ hv).2, Node.ownName?_of_ownText? hdeclared.name, htype,
    Tree.fullName_qualifiedName nameHead hnames.ne_empty, hspecifier]
  show (asName? (.str (d.nameText source)) <|> _ <|> _) = _
  unfold Declared.recordedName
  by_cases hempty : d.nameText source = ""
  · rw [if_pos hempty, hempty, Node.asName?_eq_none.mpr (.inl rfl)]
    cases asName? (.str (".".intercalate (d.typeName source))) <;> rfl
  · have hformed := Sites.isWellFormed_nameText source d.node.children
    have hname : asName? (.str (d.nameText source)) = some ⟨d.nameText source, hempty, hformed⟩ :=
      Node.asName?_nameText ⟨d.nameText source, hempty, hformed⟩
    rw [if_neg hempty, hname]
    rfl

/-- A statement that becomes one node. -/
private theorem areReadAs_one {x : Decoded Json} (h : Yields x fun v => AreReadAs source c [v]) :
    Yields (do return [← x]) (AreReadAs source c) :=
  h.bind fun _ hv => Tree.yields_pure hv

/-! ## Exported values -/

/-- A class or a function says nothing as an expression. -/
theorem expression_of_exportedDeclaration {value : SourceTree}
    (h : exportedDeclaration? value = some d) :
    (Tree.readTree source value).note.expression = .ok (some (make .unknown value.head [])) := by
  have hshape : Tree.ExpressionShape.ofType value.head.type = .other := by
    unfold exportedDeclaration? at h
    split at h
    next htype =>
      have htype : value.head.type = "class" ∨ value.head.type = "class_declaration" := htype
      rcases htype with htype | htype
      · rw [htype]; rfl
      · rw [htype]; rfl
    split at h
    next htype =>
      have htype : value.head.type = "function" ∨ value.head.type = "function_expression" ∨
        value.head.type = "function_declaration" := htype
      rcases htype with htype | htype | htype
      · rw [htype]; rfl
      · rw [htype]; rfl
      · rw [htype]; rfl
    next => cases h
  rw [Tree.note_readTree]
  show Tree.expression source value.head _ = _
  unfold Tree.expression
  rw [hshape]

/-- Without a name a declaration that is exported as a value is recorded under none. -/
theorem recordedName_of_unnamed {value : SourceTree} (h : exportedDeclaration? value = some d)
    (hname : Cst.childAt? "name" value.children = none) : d.recordedName source = "" := by
  have hd : d.node = value ∧ d.type = none := by
    unfold exportedDeclaration? at h
    rw [hname] at h
    split at h
    · obtain rfl := Option.some.inj h
      exact ⟨rfl, rfl⟩
    split at h
    · obtain rfl := Option.some.inj h
      exact ⟨rfl, rfl⟩
    · cases h
  unfold Declared.recordedName Declared.nameText Declared.typeName Sites.nameText
  rw [hd.1, hd.2, hname]
  rfl

theorem exportValue_areReadAs {value : SourceTree} (hd : declaredAt? c = exportedDeclaration? value)
    (head : CstHead) (children : List Tree.ReadNode) (modifiers : List ModifierKind) :
    Yields (Tree.exportValue source head children modifiers (Tree.readTree source value)).result
      fun v => AreReadAs source c [v] := by
  have hok := Walker.conforming_children source value.children
  have htype : (Tree.readTree source value).type = value.type :=
    congrArg CstHead.type (Tree.head_readTree value)
  unfold Tree.exportValue
  dsimp only
  rw [htype, Tree.children_readTree, Tree.childAt?_readTree, Option.isSome_map]
  split
  next hclass =>
    have hclassDeclared : declaredAt? c = some ⟨.classes, value, none⟩ := by
      rw [hd]
      exact if_pos hclass.1
    exact declaration_areReadAs hclassDeclared (Tree.classDeclaration_ok hok)
      Tree.classDeclaration_declares Tree.classDeclaration_typed
  split
  next hclass hfunction =>
    have hfunctionDeclared : declaredAt? c =
        some ⟨.functions, value, Cst.childAt? "return_type" value.children⟩ := by
      rw [hd]
      unfold exportedDeclaration?
      rw [if_neg fun h => hclass ⟨h, hfunction.2⟩, if_pos hfunction.1, if_pos hfunction.2]
    exact declaration_areReadAs hfunctionDeclared (Tree.functionDeclaration_ok hok)
      Tree.functionDeclaration_declares Tree.functionDeclaration_typed
  next hclass hfunction =>
    simp only [Built.result_bind, Built.result_lift, Built.result_pure]
    cases hvalue : exportedDeclaration? value with
    | none =>
      refine (Tree.yields_any _).bind fun expression _ => Tree.yields_ok ?_
      exact areReadAs_other (hd.trans hvalue) (by decide) head _
    | some d =>
      -- a class or a function with a name would have been declared
      have hname : Cst.childAt? "name" value.children = none := by
        refine Option.not_isSome_iff_eq_none.mp fun hname => ?_
        unfold exportedDeclaration? at hvalue
        rw [if_neg fun h => hclass ⟨h, hname⟩, if_neg fun h => hfunction ⟨h, hname⟩] at hvalue
        cases hvalue
      rw [expression_of_exportedDeclaration hvalue]
      refine Tree.yields_ok ⟨_, rfl, .expression d (hd.trans hvalue)
        (recordedName_of_unnamed hvalue hname) rfl ?_⟩
      have hexpression : lookup "expression" (Tree.present
          [("isExportEquals",
              if (Cst.tokens children).contains "=" then some (.bool true) else none),
            ("expression", some (make .unknown value.head []))]) =
          make .unknown value.head [] :=
        Tree.lookup_present_of_mem (by simp) (List.mem_cons_of_mem _ (List.mem_singleton_self _))
      show fullName? (lookup "expression" (Tree.present _)) = none
      rw [hexpression]
      rfl

/-- An export of names is no declaration. -/
theorem exportDeclaration_areReadAs (hd : declaredAt? c = none) (head : CstHead)
    (children : List Tree.ReadNode) :
    Yields (Tree.exportDeclaration source head children) fun v => AreReadAs source c [v] := by
  unfold Tree.exportDeclaration
  refine (Tree.yields_any _).bind fun clause _ => ?_
  dsimp only
  split
  · exact Tree.yields_pure (areReadAs_other hd (by decide) head [])
  · split
    · exact (Tree.yields_any _).bind fun module _ =>
        Tree.yields_pure (areReadAs_other hd (by decide) head _)
    · exact (Tree.yields_any _).bind fun module _ =>
        Tree.yields_pure (areReadAs_other hd (by decide) head _)

/-- An export without a declaration under it is that of a value or of names. -/
theorem exportStatement_areReadAs (hshape : Tree.StatementShape.ofType c.type = .exporting)
    (hdeclaration : Cst.childAt? "declaration" c.children = none) (head : CstHead) :
    Yields (Tree.exportStatement source head (c.children.map (Tree.readTree source))
      inherited).result (AreReadAs source c) := by
  have hd : declaredAt? c = (Sites.valueOf? c.children).bind exportedDeclaration? := by
    rw [declaredAt?_of_shape hshape]
    unfold declaredAs?
    rw [hdeclaration]
    rfl
  have hvalue : Tree.exportedValue? (c.children.map (Tree.readTree source)) =
      (Sites.valueOf? c.children).map (Tree.readTree source) :=
    Sites.valueOf?_map Tree.head_readTree c.children
  unfold Tree.exportStatement
  dsimp only
  rw [Tree.childAt?_readTree, hdeclaration, hvalue]
  cases hof : Sites.valueOf? c.children with
  | some value =>
    rw [hof] at hd
    simp only [Option.map_some, Option.map_none, Built.result_bind, Built.result_pure]
    exact areReadAs_one (exportValue_areReadAs hd head _ _)
  | none =>
    rw [hof] at hd
    simp only [Option.map_none, Built.result_bind, Built.result_lift, Built.result_pure]
    exact areReadAs_one (exportDeclaration_areReadAs hd head _)

/-! ## Modules and expressions -/

/-- A module with an empty name. -/
theorem unnamedModule_areReadAs (hd : declaredAt? c = none) {flags : Nat} {body : Option Json}
    {v : Json} (h : Tree.IsModule flags "" body v) : AreReadAs source c [v] := by
  obtain ⟨fields, rfl, hopens⟩ := h
  have hnone : ownName? (lookup "name" fields) = none :=
    (Node.ownName?_of_ownText? hopens.name).trans (Node.asName?_eq_none.mpr (.inl rfl))
  exact ⟨fields, rfl, .module hd hopens.kind hnone⟩

/-- A module that opens nothing has no usable name. -/
theorem moduleDeclaration_areReadAs (hd : declaredAt? c = none) {head : CstHead}
    {cs : List SourceTree} (h : Placement.ofModule source head cs = .itself) :
    Yields (Tree.moduleDeclaration source head (cs.map (Tree.readTree source)) inherited).result
      fun v => AreReadAs source c [v] := by
  have hunknown : AreReadAs source c [make .unknown head []] :=
    areReadAs_other hd (by decide) head []
  intro v hv
  obtain ⟨body, -, hcases⟩ := Tree.moduleDeclaration_readTree hv
  have hnames : ∀ nameNode, Cst.childAt? "name" cs = some nameNode →
      Placement.moduleNames source nameNode.head = [] := by
    intro nameNode hname
    unfold Placement.ofModule at h
    rw [hname] at h
    dsimp only at h
    cases hnames : Placement.moduleNames source nameNode.head with
    | nil => rfl
    | cons first rest =>
      rw [hnames] at h
      cases h
  cases hcases with
  | unnamed => exact hunknown
  | quoted nameNode text modifiers hname htype htext =>
    have hnames := hnames nameNode hname
    rw [Placement.moduleNames_quoted htype htext] at hnames
    -- nothing stands between the quotes
    have hempty : unquote text = "" := by
      by_contra hne
      rw [List.filter_cons_of_pos (by simpa using hne)] at hnames
      cases hnames
    have hown : Node.ownText? (make .stringLiteral nameNode.head
        [("text", some (.str (unquote text)))]) = Node.asText? (.str "") := by
      rw [Tree.ownText_make, hempty]
    exact unnamedModule_areReadAs hd (Tree.isModule_outer hown)
  | segmentless => exact hunknown
  | dotted nameNode text first rest modifiers hname htype htext hsegments =>
    have hnames := hnames nameNode hname
    rw [Placement.moduleNames_dotted htype htext, hsegments] at hnames
    cases hnames

/-- An expression that is no module. -/
theorem expressionStatement_areReadAs (hd : declaredAt? c = none) {head : CstHead}
    {cs : List SourceTree} (h : Placement.ofExpression cs = .itself) :
    Yields (Tree.expressionStatement source head (cs.map (Tree.readTree source)) inherited).result
      (AreReadAs source c) := by
  have hplain : ∀ inner, Yields (Tree.expressionStatement.plain head inner).result
      (AreReadAs source c) := by
    intro inner
    unfold Tree.expressionStatement.plain
    simp only [Built.result_bind, Built.result_lift, Built.result_pure]
    refine (Tree.yields_any _).bind fun expression _ => Tree.yields_ok ?_
    exact areReadAs_other hd (by decide) head _
  unfold Placement.ofExpression at h
  unfold Tree.expressionStatement
  dsimp only
  rw [Tree.withoutComments_readTree]
  revert h
  generalize Cst.withoutComments (Cst.named cs) = inner
  intro h
  match inner, h with
  | [], _ => exact hplain _
  | [only], h =>
    have htype : (Tree.readTree source only).type = only.type :=
      congrArg CstHead.type (Tree.head_readTree only)
    dsimp only at h
    split at h
    · cases h
    next hother =>
      rw [List.map_singleton]
      dsimp only
      rw [htype, if_neg hother]
      exact hplain _
  | _ :: _ :: _, _ => exact hplain _

/-! ## Statements of every kind -/

/-- **What a statement by itself is read as.** -/
theorem readTree_areReadAs (source : Source) (c : SourceTree)
    (hplace : Placement.of source c.head c.children = .itself) (inherited : List ModifierKind) :
    Yields ((Tree.readTree source c).note.statement inherited).result (AreReadAs source c) := by
  have hok := Walker.conforming_children source c.children
  have hdeclared {shape : Tree.StatementShape}
      (hshape : Tree.StatementShape.ofType c.head.type = shape) :
      declaredAt? c = declaredAs? shape c := declaredAt?_of_shape hshape
  rw [Tree.note_readTree]
  show Yields (Tree.statement source c.head (c.children.map (Tree.readTree source))
    inherited).result _
  unfold Placement.of at hplace
  unfold Tree.statement
  cases hshape : Tree.StatementShape.ofType c.head.type with
  | function =>
    simp only [Built.result_bind, Built.result_pure]
    exact areReadAs_one (declaration_areReadAs (hdeclared hshape) (Tree.functionDeclaration_ok hok)
      Tree.functionDeclaration_declares Tree.functionDeclaration_typed)
  | classBody =>
    simp only [Built.result_bind, Built.result_pure]
    exact areReadAs_one (declaration_areReadAs (hdeclared hshape) (Tree.classDeclaration_ok hok)
      Tree.classDeclaration_declares Tree.classDeclaration_typed)
  | interface =>
    simp only [Built.result_bind, Built.result_lift, Built.result_pure]
    exact areReadAs_one (declaration_areReadAs (hdeclared hshape) (Tree.interfaceDeclaration_ok hok)
      Tree.interfaceDeclaration_declares Tree.interfaceDeclaration_typed)
  | typeAlias =>
    simp only [Built.result_bind, Built.result_lift, Built.result_pure]
    exact areReadAs_one (declaration_areReadAs (hdeclared hshape) (Tree.typeAliasDeclaration_ok hok)
      Tree.typeAliasDeclaration_declares Tree.typeAliasDeclaration_typed)
  | exporting =>
    rw [hshape] at hplace
    dsimp only at hplace
    unfold Placement.ofExport at hplace
    have hnone : Cst.childAt? "declaration" c.children = none := by
      cases hdeclaration : Cst.childAt? "declaration" c.children with
      | none => rfl
      | some declaration =>
        rw [hdeclaration] at hplace
        cases hplace
    exact exportStatement_areReadAs hshape hnone c.head
  | comment =>
    rw [hshape] at hplace
    cases hplace
  | ambient =>
    rw [hshape] at hplace
    dsimp only at hplace
    unfold Placement.ofAmbient at hplace
    split at hplace
    · cases hplace
    · cases hplace
  | module =>
    rw [hshape] at hplace
    simp only [Built.result_bind, Built.result_pure]
    exact areReadAs_one (moduleDeclaration_areReadAs (hdeclared hshape) hplace)
  | expression =>
    rw [hshape] at hplace
    exact expressionStatement_areReadAs (hdeclared hshape) hplace
  | enumeration =>
    simp only [Built.result_bind, Built.result_lift, Built.result_pure]
    refine areReadAs_one ?_
    unfold Tree.enumDeclaration
    refine (Tree.yields_any _).bind fun modifiers _ => (Tree.yields_any _).bind fun name _ => ?_
    exact Tree.yields_pure (areReadAs_other (hdeclared hshape) (by decide) c.head _)
  | variableList =>
    simp only [Built.result_bind, Built.result_lift, Built.result_pure]
    refine areReadAs_one ((Tree.yields_any _).bind fun declarations _ => ?_)
    exact Tree.yields_pure (areReadAs_other (hdeclared hshape) (by decide) c.head _)
  | importing =>
    simp only [Built.result_bind, Built.result_lift, Built.result_pure]
    refine areReadAs_one ?_
    unfold Tree.importDeclaration
    split
    · exact Tree.yields_ok (areReadAs_other (hdeclared hshape) (by decide) c.head _)
    · refine (Tree.yields_any _).bind fun clause _ => (Tree.yields_any _).bind fun module _ => ?_
      exact Tree.yields_pure (areReadAs_other (hdeclared hshape) (by decide) c.head _)
  | plain kind =>
    have hnothing := Walker.plainStatement_nothing hshape
    exact Tree.yields_ok (areReadAs_other (hdeclared hshape) hnothing c.head [])
  | other =>
    exact Tree.yields_ok (areReadAs_other (hdeclared hshape) (by decide) c.head [])

end Reading

/-! ## Visits of declarations -/

/-- A step that ends for want of a name and pushes nothing. -/
def Outcome.FindsNoName (outcome : Outcome Unit) : Prop :=
  (∃ node, outcome.result = .error (.unresolvableName node)) ∧ Event.pushes outcome.events = []

/-- A step that succeeds and pushes one declaration. -/
def Outcome.PushesOnly (outcome : Outcome Unit) (drawn : Nat) (heading : Heading)
    (name context : String) : Prop :=
  outcome.result = .ok () ∧ outcome.drawn = drawn ∧ ∃ record : Declaration,
    record.name.val = name ∧
      Event.pushes outcome.events = [.declaration heading record (.str context)]

theorem Walk.Alike.findsNoName {v : Walk Unit} {fault : Fault}
    (h : v.Alike Event.bare Eq (Walk.fail fault)) (hfault : fault.IsNameless) (drawn : Nat) :
    (v drawn).FindsNoName := by
  obtain ⟨hevents, -, hresult⟩ := h drawn
  obtain ⟨other, hother, houtline⟩ := hresult.eq_error
  obtain ⟨node, rfl⟩ := Fault.isNameless_of_outline houtline hfault
  refine ⟨⟨node, hother⟩, ?_⟩
  have hbare := Event.pushes_bare (v drawn).events
  rw [hevents] at hbare
  exact List.map_eq_nil_iff.mp hbare.symm

namespace View

variable {v : View}

/-- A declaration that resolves to no name. -/
theorem declare_unnamed (h : v.resolved = none) (heading : Heading) (context : String) :
    v.declare heading context = Walk.fail (.nameless (Json.ofText? v.kind)) := by
  unfold declare
  rw [h]
  rfl

/-- An export of an expression without a name. -/
theorem export_unnamed (h : v.expression = none) (context : String) :
    v.export context = Walk.fail (.nameless (Json.ofText? v.kind)) := by
  unfold View.export
  rw [h]
  rfl

/-- A module without a name. -/
theorem enter_unnamed (h : v.name = none) (w : Walker) :
    v.enter w = Walk.fail (.nameless v.tag) := by
  unfold enter
  rw [h]

/-- A declaration that resolves to a name. -/
theorem declare_apply {name : Name} (hname : v.resolved = some name) (heading : Heading)
    (context : String) (drawn : Nat) :
    (v.declare heading context drawn).PushesOnly drawn heading name.val context := by
  unfold declare
  rw [hname, NameView.resolve_some, pure_bind]
  dsimp only
  split
  · exact ⟨rfl, rfl, _, rfl, rfl⟩
  · exact ⟨rfl, rfl, _, rfl, rfl⟩

end View

theorem Walk.Alike.pushesOnly {v u : Walk Unit} (h : v.Alike Event.bare Eq u) {drawn : Nat}
    {heading : Heading} {name context : String}
    (hu : (u drawn).PushesOnly drawn heading name context) :
    (v drawn).PushesOnly drawn heading name context := by
  obtain ⟨hok, hdrawn, record, hname, hpushes⟩ := hu
  obtain ⟨hevents, hsame, hresult⟩ := h drawn
  rw [hok] at hresult
  refine ⟨hresult.eq_ok, hsame.trans hdrawn, ?_⟩
  -- the node of the record is all that is not seen
  have hbare := Event.pushes_bare (v drawn).events
  rw [hevents, Event.pushes_bare, hpushes] at hbare
  obtain ⟨p, hp, hrecord⟩ := List.map_eq_singleton_iff.mp hbare.symm
  cases p with
  | declaration other own under =>
    obtain ⟨rfl, hsame, rfl⟩ := Push.declaration.inj hrecord
    exact ⟨own, (congrArg (·.name.val) hsame).trans hname, hp⟩
  | _ => cases hrecord

namespace Walker

variable {w : Walker} {source : Source} {c : SourceTree} {inherited : List ModifierKind}
  {us : List Json}

/-- **A visit of a declaration** records it under its name, or ends for want of one. -/
theorem visit_declared (hkinds : w.kinds = .standard)
    (hread : ((Tree.readTree source c).note.statement inherited).result = .ok us)
    (h : AreReadAs source c us) {d : Declared} (hd : declaredAt? c = some d) (context : String)
    (drawn : Nat) :
    let paid := w.visit source (.statement context inherited c) drawn
    (d.recordedName source = "" → paid.FindsNoName) ∧
      (d.recordedName source ≠ "" →
        paid.PushesOnly drawn d.heading (d.recordedName source) context) := by
  intro paid
  obtain ⟨fields, rfl, hfields⟩ := h
  have hview := w.visit_view hread context
  rw [hkinds] at hview
  cases hfields with
  | declaration other hother hkind hresolved =>
    obtain rfl := Option.some.inj (hother.symm.trans hd)
    have hstatement : (View.of .standard fields).statement w (w.innerBody fields) context =
        (View.of .standard fields).declare other.heading context := by
      unfold View.statement
      rw [View.step_standard hkind, StatementKind.ofName?_heading]
      rfl
    rw [hstatement] at hview
    refine ⟨fun hempty => ?_, fun hne => ?_⟩
    · rw [hempty] at hresolved
      rw [View.declare_unnamed hresolved] at hview
      exact hview.findsNoName ⟨_, rfl⟩ drawn
    · have hformed := other.isWellFormed_recordedName source
      have hname : (View.of .standard fields).resolved =
          some ⟨other.recordedName source, hne, hformed⟩ :=
        hresolved.trans (Node.asName?_nameText ⟨other.recordedName source, hne, hformed⟩)
      exact hview.pushesOnly (View.declare_apply hname other.heading context drawn)
  | expression other hother hempty hkind hexpression =>
    obtain rfl := Option.some.inj (hother.symm.trans hd)
    have hstatement : (View.of .standard fields).statement w (w.innerBody fields) context =
        (View.of .standard fields).export context := by
      unfold View.statement
      rw [View.step_standard hkind]
      rfl
    rw [hstatement, View.export_unnamed hexpression] at hview
    exact ⟨fun _ => hview.findsNoName ⟨_, rfl⟩ drawn, fun hne => absurd hempty hne⟩
  | module hnone => cases hnone.symm.trans hd
  | other kind hnone => cases hnone.symm.trans hd

/-- A declaration that a visit pushes is the one that it comes to, under its name. -/
theorem visit_pushes_declaration (hkinds : w.kinds = .standard)
    (hread : ((Tree.readTree source c).note.statement inherited).result = .ok us)
    (h : AreReadAs source c us) {context : String} {drawn : Nat} {heading : Heading}
    {record : Declaration} {under : Json} (hpushed : .declaration heading record under ∈
      Event.pushes (w.visit source (.statement context inherited c) drawn).events) :
    ∃ d, declaredAt? c = some d ∧ d.heading = heading ∧ under = .str context ∧
      record.name.val = d.recordedName source := by
  cases hd : declaredAt? c with
  | some d =>
    obtain ⟨hnameless, hnamed⟩ := visit_declared hkinds hread h hd context drawn
    by_cases hempty : d.recordedName source = ""
    · rw [(hnameless hempty).2] at hpushed
      cases hpushed
    · obtain ⟨-, -, other, hname, hpushes⟩ := hnamed hempty
      rw [hpushes] at hpushed
      obtain ⟨rfl, rfl, rfl⟩ := Push.declaration.inj (List.mem_singleton.mp hpushed)
      exact ⟨d, rfl, rfl, rfl, hname⟩
  | none =>
    obtain ⟨fields, rfl, hfields⟩ := h
    cases hfields with
    | declaration other hother => cases hother.symm.trans hd
    | expression other hother => cases hother.symm.trans hd
    | module hnone hkind hname =>
      have hview := w.visit_view hread context
      rw [hkinds] at hview
      have hstatement : (View.of .standard fields).statement w (w.innerBody fields) context =
          ((View.of .standard fields).enter w >>= w.innerBody fields) := by
        unfold View.statement
        rw [View.step_standard hkind]
        rfl
      rw [hstatement, View.enter_unnamed hname, Walk.fail_bind] at hview
      rw [(hview.findsNoName ⟨_, rfl⟩ drawn).2] at hpushed
      cases hpushed
    | other kind hnone hkind hnothing =>
      rw [visit_statement hread, statements_singleton] at hpushed
      have hdeclares := statement_declaresNothing hkinds hkind hnothing context
      exact absurd hpushed (hdeclares.not_mem_pushes drawn)

/-- No declaration is pushed when a module is entered. -/
theorem openLevel_declaresNothing (w : Walker) (level : ModuleLevel) :
    (w.openLevel level).DeclaresNothing := by
  unfold openLevel
  split
  · refine Walk.ensures_push (fun _ p hp => ?_) trivial
    rw [← Event.pushed.inj hp]
    rfl
  · exact Walk.ensures_pure trivial

end Walker

/-! ## Extractions -/

namespace World

variable {world : World} {settings : Settings} {bytes : ByteArray} {module fileName : Option String}
  {tsx : Option Bool} {drawn : Nat} {before after : List Visit} {context : String}
  {inherited : List ModifierKind} {c : SourceTree}

/-- A statement that an extraction gets to is read as what a statement by itself can be. -/
theorem Reaches.areReadAs (hkinds : settings.kindTable world.files = .ok .standard)
    (h : world.Reaches settings bytes module fileName tsx drawn before
      (.statement context inherited c) after) :
    ∃ us, ((Tree.readTree ⟨bytes⟩ c).note.statement inherited).result = .ok us ∧
      AreReadAs ⟨bytes⟩ c us := by
  obtain ⟨us, hread⟩ := h.reads hkinds
  exact ⟨us, hread, readTree_areReadAs ⟨bytes⟩ c h.atItself inherited us hread⟩

/-- **The names that declarations are recorded under.** Let an extraction with the standard kinds
get to a declaration, wherever it stands. If there is no name to record it under, the extraction
ends there for want of one, and pushes nothing more. Otherwise the declaration is recorded under
that name and the context of the statement, between what was pushed before and what is pushed by the
visits behind. And no declaration is pushed but for one that the extraction gets to, under its name.
-/
theorem extractSource_recordedNames (world : World) (settings : Settings)
    (hkinds : settings.kindTable world.files = .ok .standard) (bytes : ByteArray)
    (module fileName : Option String) (tsx : Option Bool) (drawn : Nat) :
    let w := settings.walker .standard world.tokens
    let outcome := world.extractSource settings bytes module fileName tsx drawn
    (∀ before context inherited c after d,
      world.Reaches settings bytes module fileName tsx drawn before
        (.statement context inherited c) after → declaredAt? c = some d →
      let start := w.course ⟨bytes⟩ before drawn
      (d.recordedName ⟨bytes⟩ = "" →
        (∃ node, outcome.result = .error (.unresolvableName node)) ∧
          Event.pushes outcome.events = Event.pushes start.events) ∧
      (d.recordedName ⟨bytes⟩ ≠ "" → ∃ record : Declaration,
        record.name.val = d.recordedName ⟨bytes⟩ ∧
          Event.pushes outcome.events = Event.pushes start.events ++
            .declaration d.heading record (.str context) ::
              Event.pushes (w.course ⟨bytes⟩ after start.drawn).events)) ∧
    ∀ heading record under, .declaration heading record under ∈ Event.pushes outcome.events →
      ∃ before context inherited c after d,
        world.Reaches settings bytes module fileName tsx drawn before
          (.statement context inherited c) after ∧
        declaredAt? c = some d ∧ d.heading = heading ∧ under = .str context ∧
          record.name.val = d.recordedName ⟨bytes⟩ := by
  intro w outcome
  refine ⟨fun before context inherited c after d hvisit hd => ?_, fun heading record under h => ?_⟩
  · intro start
    obtain ⟨us, hread, hareRead⟩ := hvisit.areReadAs hkinds
    obtain ⟨hnameless, hnamed⟩ :=
      Walker.visit_declared (w := w) rfl hread hareRead hd context start.drawn
    obtain ⟨hpaid, hfailed⟩ := hvisit.outcome hkinds
    refine ⟨fun hempty => ?_, fun hne => ?_⟩
    · obtain ⟨⟨node, hnode⟩, hnone⟩ := hnameless hempty
      obtain ⟨hpushes, other, hother, houtline⟩ := hfailed _ hnode
      obtain ⟨node, rfl⟩ := Fault.isNameless_of_outline houtline ⟨_, rfl⟩
      rw [hnone, List.append_nil] at hpushes
      exact ⟨⟨node, hother⟩, hpushes⟩
    · obtain ⟨hok, hdrawn, record, hname, hpushes⟩ := hnamed hne
      have houtcome := hpaid hok
      rw [hpushes, hdrawn, List.append_assoc] at houtcome
      exact ⟨record, hname, houtcome⟩
  · obtain ⟨before, visit, after, hvisit, hpushed⟩ := Reaches.of_mem_pushes hkinds h
    cases visit with
    | enter level =>
      exact absurd hpushed ((Walker.openLevel_declaresNothing w level).not_mem_pushes _)
    | statement context inherited c =>
      obtain ⟨us, hread, hareRead⟩ := hvisit.areReadAs hkinds
      obtain ⟨d, hd, hheading, hunder, hname⟩ :=
        Walker.visit_pushes_declaration (w := w) rfl hread hareRead hpushed
      exact ⟨before, context, inherited, c, after, d, hvisit, hd, hheading, hunder, hname⟩

/-- A function with the given children, held as the declaration of an export. -/
def functionOf (children : List SourceTree) : SourceTree :=
  .node ⟨"function_declaration", true, some "declaration", 0, 0⟩ () children

/-- A return type that stands at the given bytes. -/
def returnType (start stop : Nat) : SourceTree :=
  .node ⟨"type_annotation", true, some "return_type", 0, 0⟩ ()
    [.node ⟨"type_identifier", true, none, start, stop⟩ () []]

/-- A function with a name, an exported one without, and an ambient class without one: the second is
recorded under what it returns, and the class ends the extraction. -/
theorem extractSource_recordedNames_three :
    let bytes :=
      "function f() \x7b\x7d export function (): Foo \x7b\x7d declare class \x7b\x7d".toUTF8
    let root : SourceTree := .node ⟨"program", true, none, 0, 59⟩ ()
      [functionOf [.node ⟨"identifier", true, some "name", 9, 10⟩ () []],
       .node ⟨"export_statement", true, none, 16, 42⟩ () [functionOf [returnType 36 39]],
       .node ⟨"ambient_declaration", true, none, 43, 59⟩ ()
        [.node ⟨"class_declaration", true, none, 51, 59⟩ () []]]
    let outcome := (always root).extractSource Settings.standard bytes none none none 0
    ∃ first second : Declaration, first.name.val = "f" ∧ second.name.val = "Foo" ∧
      .declaration .functions first (.str "root") ∈ Event.pushes outcome.events ∧
      .declaration .functions second (.str "root") ∈ Event.pushes outcome.events ∧
      (Event.pushes outcome.events).length = 2 ∧
      ∃ node, outcome.result = .error (.unresolvableName node) := by
  intro bytes root outcome
  let named : Visit := .statement "root" []
    (functionOf [.node ⟨"identifier", true, some "name", 9, 10⟩ () []])
  let unnamed : Visit := .statement "root" [.exported] (functionOf [returnType 36 39])
  let last : Visit := .statement "root" [.declared]
    (.node ⟨"class_declaration", true, none, 51, 59⟩ () [])
  have hlength : (Event.pushes outcome.events).length = 2 := by decide +kernel
  have hvisits : (always root).visits Settings.standard bytes none none =
      [named, unnamed, last] := by decide +kernel
  have hwalked : ¬ outcome.EndsEarly := by
    intro hearly
    have hnone : Event.pushes outcome.events = [] := pushes_of_endsEarly rfl hearly
    rw [hnone] at hlength
    cases hlength
  have hok : ∀ {step : Outcome Unit}, step.result.isOk = true → step.result = .ok () := by
    intro step h
    cases hresult : step.result with
    | ok => rfl
    | error fault =>
      rw [hresult] at h
      cases h
  have hfirst : (always root).Reaches Settings.standard bytes none none none 0 [] named
      [unnamed, last] := ⟨hwalked, hvisits, rfl⟩
  have hsecond : (always root).Reaches Settings.standard bytes none none none 0 [named] unnamed
      [last] := ⟨hwalked, hvisits, hok (by decide +kernel)⟩
  have hthird : (always root).Reaches Settings.standard bytes none none none 0 [named, unnamed]
      last [] := ⟨hwalked, hvisits, hok (by decide +kernel)⟩
  obtain ⟨hdeclared, -⟩ := extractSource_recordedNames (always root) Settings.standard rfl bytes
    none none none 0
  obtain ⟨first, hf, hpushedFirst⟩ := (hdeclared _ _ _ _ _ _ hfirst rfl).2 (by decide +kernel)
  obtain ⟨second, hs, hpushedSecond⟩ := (hdeclared _ _ _ _ _ _ hsecond rfl).2 (by decide +kernel)
  obtain ⟨hended, -⟩ := (hdeclared _ _ _ _ _ _ hthird rfl).1 (by decide +kernel)
  have hnames : first.name.val = "f" ∧ second.name.val = "Foo" :=
    ⟨hf.trans (by decide +kernel), hs.trans (by decide +kernel)⟩
  refine ⟨first, second, hnames.1, hnames.2, ?_, ?_, hlength, hended⟩
  · exact hpushedFirst ▸ List.mem_append_right _ (List.mem_cons_self ..)
  · exact hpushedSecond ▸ List.mem_append_right _ (List.mem_cons_self ..)

/-- A function without a name is recorded under the name of its return type, and the extraction
succeeds. -/
theorem extractSource_recordedNames_returnType :
    let bytes := "function (): Foo \x7b\x7d".toUTF8
    let unnamed := functionOf [returnType 13 16]
    let outcome := (always (.node ⟨"program", true, none, 0, 19⟩ () [unnamed])).extractSource
      Settings.standard bytes none none none 0
    Cst.childAt? "name" unnamed.children = none ∧ outcome.result.isOk = true ∧
      (Event.pushes outcome.events).map Push.bare =
        [.declaration .functions ⟨"root", .function, ⟨"Foo", by decide⟩, false, []⟩
          (.str "root")] := by
  intro bytes unnamed outcome
  exact ⟨rfl, by decide +kernel, by decide +kernel⟩

end World

end DeclCatalogue
