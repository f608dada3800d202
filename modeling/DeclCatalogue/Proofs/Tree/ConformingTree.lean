import DeclCatalogue.Proofs.Node.Links
import DeclCatalogue.Proofs.Tree.Conforming
import DeclCatalogue.Proofs.Tree.Modules

/-!
# Built trees keep to the schema

Declarations and statements, each from the readings of its children, and at the end the tree as a
whole: every reading of every node keeps to the schema (`conforming_readTree`), and so does the node
of a file with everything in it (`nodeOf_fileNode`). Nothing is asked of the concrete tree.

The schema knows no links. What holds of all objects in the node of a file, and of an object with a
link if it does without, therefore holds of all objects in the tree of the file (`build_each`).
-/

namespace DeclCatalogue.Tree

variable {source : Source} {head : CstHead} {children : List ReadNode}
  {inherited : List ModifierKind}

/-- A node that needs no field of its own, among all nodes. -/
theorem anyNode_make {kind : SyntaxKind} {fields : List (String × Option Json)}
    (hown : ownKeys kind = []) (hfields : FieldsOk kind fields) :
    AnyNode (make kind head fields) := by
  refine NodeOf.any (nodeOf_make hfields fun key hkey => ?_)
  rw [hown] at hkey
  cases hkey

/-! ## Blocks and declarations -/

theorem statementsAmong_ok (h : AllConforming children) :
    Yields (statementsAmong children).result NodesOk := by
  unfold statementsAmong
  simp only [Built.result_bind, Built.result_forEach, Built.result_pure]
  refine (yields_decodeEach fun c hc => (h.named c hc).self.statement []).bind
    fun groups hgroups => ?_
  exact yields_ok (nodesOk_flatten hgroups)

/-- A node that has nothing but statements. -/
theorem nodeOf_statements {kind : SyntaxKind} (hown : ownKeys kind = ["statements"])
    {statements : List Json} (hstatements : NodesOk statements) :
    NodeOf [kind] (make kind head [("statements", some (.arr statements))]) := by
  refine nodeOf_make ⟨fieldOk_nodes rfl hstatements, trivial⟩ fun key hkey => ?_
  rw [hown] at hkey
  rw [List.mem_singleton.mp hkey]
  exact ⟨_, List.mem_cons_self ..⟩

theorem block_ok {kind : SyntaxKind} (hown : ownKeys kind = ["statements"]) {c : Option ReadNode}
    (h : ∀ d, c = some d → Conforming d) : Yields (block kind c).result (OptNode [kind]) := by
  cases c with
  | none => exact yields_ok optNode_none
  | some c =>
    unfold block
    simp only [Built.result_bind, Built.result_pure]
    refine (statementsAmong_ok (h c rfl).below).bind fun statements hstatements => ?_
    exact yields_ok (optNode_some (nodeOf_statements hown hstatements))

theorem functionDeclaration_ok (h : AllConforming children) :
    Yields (functionDeclaration source head children inherited).result AnyNode := by
  unfold functionDeclaration
  simp only [Built.result_bind, Built.result_lift, Built.result_pure]
  refine (modifiers_ok source inherited children).bind fun modifiers hmodifiers => ?_
  refine (identifierOf_ok source _).bind fun name hname => ?_
  refine (typeParameters_ok h).bind fun typeParameters htypeParameters => ?_
  refine (parameters_ok (h.childAt "parameters")).bind fun parameters hparameters => ?_
  refine (typeOf_ok (h.childAt "return_type")).bind fun type htype => ?_
  refine (block_ok rfl (h.childAt "body")).bind fun body hbody => ?_
  exact yields_ok (anyNode_make rfl ⟨hmodifiers _, fieldOk_node rfl hname, htypeParameters _,
    hparameters _, fieldOk_node rfl htype, fieldOk_node rfl hbody, trivial⟩)

theorem classMember_ok {c : ReadNode} (h : Conforming c) :
    Yields (classMember source c).result NodesOk := by
  unfold classMember
  split
  · -- comments and decorators are passed over
    exact yields_ok nodesOk_nil
  · -- a method
    simp only [Built.result_bind, Built.result_lift, Built.result_pure]
    refine (yields_any _).bind fun text _ => ?_
    refine (modifiers_ok source [] c.children).bind fun modifiers hmodifiers => ?_
    refine Yields.bind (R := OptNode propertyKinds) ?_ fun name hname => ?_
    · split
      · exact yields_ok optNode_none
      · exact propertyName_ok source _
    refine (typeParameters_ok h.below).bind fun typeParameters htypeParameters => ?_
    refine (parameters_ok (h.below.childAt "parameters")).bind fun parameters hparameters => ?_
    refine (typeOf_ok (h.below.childAt "return_type")).bind fun type htype => ?_
    refine (block_ok rfl (h.below.childAt "body")).bind fun body hbody => ?_
    refine yields_ok (nodesOk_singleton ?_)
    split
    all_goals
      exact anyNode_make rfl ⟨hmodifiers _, fieldOk_node rfl hname, htypeParameters _,
        hparameters _, fieldOk_node rfl htype, fieldOk_node rfl hbody, trivial⟩
  · -- a property
    simp only [Built.result_bind, Built.result_lift, Built.result_pure]
    refine (modifiers_ok source [] c.children).bind fun modifiers hmodifiers => ?_
    refine (propertyName_ok source _).bind fun name hname => ?_
    refine (typeOf_ok (h.below.childAt "type")).bind fun type htype => ?_
    refine (expressionOf_ok (h.below.childAt "value")).bind fun initializer hinitializer => ?_
    exact yields_ok (nodesOk_singleton (anyNode_make rfl ⟨hmodifiers _, fieldOk_node rfl hname,
      fieldOk_node rfl htype, fieldOk_node rfl hinitializer, trivial⟩))
  · -- anything else
    exact yields_ok (nodesOk_singleton (unknown_any c.head))

theorem classDeclaration_ok (h : AllConforming children) :
    Yields (classDeclaration source head children inherited).result AnyNode := by
  have hbody := Cst.eachNode_childrenOf (h.childAt "body")
  unfold classDeclaration
  simp only [Built.result_bind, Built.result_lift, Built.result_pure, Built.result_forEach]
  refine (modifiers_ok source inherited children).bind fun modifiers hmodifiers => ?_
  refine (identifierOf_ok source _).bind fun name hname => ?_
  refine (typeParameters_ok h).bind fun typeParameters htypeParameters => ?_
  refine (yields_decodeEach fun c hc => classMember_ok (hbody c (Cst.mem_of_mem_named hc))).bind
    fun members hmembers => ?_
  exact yields_ok (anyNode_make rfl ⟨hmodifiers _, fieldOk_node rfl hname, htypeParameters _,
    fieldOk_nodes rfl (nodesOk_flatten hmembers), trivial⟩)

theorem interfaceDeclaration_ok (h : AllConforming children) :
    Yields (interfaceDeclaration source head children inherited) AnyNode := by
  have hbody : ∀ d, (Cst.childAt? "body" children
      <|> Cst.childOfType? ["interface_body", "object_type"] children) = some d → Conforming d := by
    intro d hd
    cases hat : Cst.childAt? "body" children with
    | none => rw [hat] at hd; exact h.childOfType _ d hd
    | some c => rw [hat] at hd; exact h.childAt _ d (hat.trans hd)
  unfold interfaceDeclaration
  refine (modifiers_ok source inherited children).bind fun modifiers hmodifiers => ?_
  refine (identifierOf_ok source _).bind fun name hname => ?_
  refine (typeParameters_ok h).bind fun typeParameters htypeParameters => ?_
  refine (typeMembers_ok (Cst.eachNode_childrenOf hbody)).bind fun members hmembers => ?_
  exact yields_pure (anyNode_make rfl ⟨hmodifiers _, fieldOk_node rfl hname, htypeParameters _,
    hmembers _, trivial⟩)

theorem typeAliasDeclaration_ok (h : AllConforming children) :
    Yields (typeAliasDeclaration source head children inherited) AnyNode := by
  unfold typeAliasDeclaration
  refine (modifiers_ok source inherited children).bind fun modifiers hmodifiers => ?_
  refine (identifierOf_ok source _).bind fun name hname => ?_
  refine (typeParameters_ok h).bind fun typeParameters htypeParameters => ?_
  refine (typeOf_ok (h.childAt "value")).bind fun type htype => ?_
  exact yields_pure (anyNode_make rfl ⟨hmodifiers _, fieldOk_node rfl hname, htypeParameters _,
    fieldOk_node rfl htype, trivial⟩)

theorem enumDeclaration_ok :
    Yields (enumDeclaration source head children inherited) AnyNode := by
  unfold enumDeclaration
  refine (modifiers_ok source inherited children).bind fun modifiers hmodifiers => ?_
  refine (identifierOf_ok source _).bind fun name hname => ?_
  exact yields_pure (anyNode_make rfl ⟨hmodifiers _, fieldOk_node rfl hname, trivial⟩)

/-! ## Variables -/

theorem variableDeclaration_ok {c : ReadNode} (h : Conforming c) :
    Yields (variableDeclaration c) (NodeOf [.variableDeclaration]) := by
  unfold variableDeclaration
  refine (bindingOf_ok (h.below.childAt "name")).bind fun name hname => ?_
  refine (typeOf_ok (h.below.childAt "type")).bind fun type htype => ?_
  refine (expressionOf_ok (h.below.childAt "value")).bind fun initializer hinitializer => ?_
  refine yields_pure (nodeOf_make ?_ fun key hkey => by cases hkey)
  exact ⟨fieldOk_node rfl hname, fieldOk_node rfl htype, fieldOk_node rfl hinitializer, trivial⟩

theorem variableStatement_ok (h : AllConforming children) :
    Yields (variableStatement head children inherited) AnyNode := by
  unfold variableStatement
  refine (yields_decodeEach fun c hc => variableDeclaration_ok (h.named.filter _ c hc)).bind
    fun declarations hdeclarations => ?_
  have hlist : ∀ flags, NodeOf [.variableDeclarationList] (flagged .variableDeclarationList head
      flags [("declarations", some (.arr declarations))]) := by
    intro flags
    refine nodeOf_flagged ⟨fieldOk_nodes rfl hdeclarations, trivial⟩ fun key hkey => ?_
    rw [List.mem_singleton.mp hkey]
    exact ⟨_, List.mem_cons_self ..⟩
  refine yields_pure (NodeOf.any (nodeOf_make ⟨modifierNodes_ok _ inherited,
    fieldOk_node rfl (optNode_some (hlist _)), trivial⟩ fun key hkey => ?_))
  rw [List.mem_singleton.mp hkey]
  exact ⟨_, List.mem_cons_of_mem _ (List.mem_cons_self ..)⟩

/-! ## Imports -/

theorem importSpecifier_ok {c : ReadNode} :
    Yields (importSpecifier source c) (NodeOf [.importSpecifier]) := by
  unfold importSpecifier
  dsimp only
  split
  next aliasNode _ =>
    refine (identifierOf_ok source _).bind fun property hproperty => ?_
    refine (identifier_ok source aliasNode.head).bind fun name hname => ?_
    refine yields_pure (nodeOf_make ?_ fun key hkey => by cases hkey)
    exact ⟨fieldOk_node rfl hproperty, fieldOk_node rfl hname, trivial⟩
  next =>
    refine (identifierOf_ok source _).bind fun name hname => ?_
    refine yields_pure (nodeOf_make ?_ fun key hkey => by cases hkey)
    exact ⟨fieldOk_node rfl hname, trivial⟩

/-- The name and the bindings of an import keep to the schema. -/
def ImportPartsOk (found : Option Json × Option Json) : Prop :=
  OptNode [.identifier] found.1 ∧ OptNode [.namespaceImport, .namedImports] found.2

theorem importPart_ok {found : Option Json × Option Json} (hfound : ImportPartsOk found)
    (c : ReadNode) : Yields (importPart source found c) ImportPartsOk := by
  unfold importPart
  split
  · exact (identifier_ok source c.head).bind fun name hname => yields_pure ⟨hname, hfound.2⟩
  split
  · refine (identifierOf_ok source _).bind fun name hname => ?_
    have hnode : NodeOf [.namespaceImport] (make .namespaceImport c.head [("name", name)]) :=
      nodeOf_make ⟨fieldOk_node rfl hname, trivial⟩ fun key hkey => by cases hkey
    exact yields_pure ⟨hfound.1, optNode_some (hnode.mono (by decide))⟩
  split
  · refine (yields_decodeEach fun d _ => importSpecifier_ok).bind fun elements helements => ?_
    have hnode : NodeOf [.namedImports] (make .namedImports c.head
        [("elements", some (.arr elements))]) := by
      refine nodeOf_make ⟨fieldOk_nodes rfl helements, trivial⟩ fun key hkey => ?_
      rw [List.mem_singleton.mp hkey]
      exact ⟨_, List.mem_cons_self ..⟩
    exact yields_pure ⟨hfound.1, optNode_some (hnode.mono (by decide))⟩
  · exact yields_ok hfound

theorem importParts_ok {found : Option Json × Option Json} (hfound : ImportPartsOk found)
    (nodes : List ReadNode) : Yields (importParts source found nodes) ImportPartsOk := by
  induction nodes generalizing found with
  | nil => exact yields_ok hfound
  | cons c rest ih =>
    rw [importParts]
    exact (importPart_ok hfound c).bind fun found hfound => ih hfound

theorem importClause_ok {typeOnly : Bool} {c : Option ReadNode} :
    Yields (importClause source typeOnly c) (OptNode [.importClause]) := by
  cases c with
  | none => exact yields_ok optNode_none
  | some clause =>
    unfold importClause
    refine (importParts_ok ⟨optNode_none, optNode_none⟩ _).bind fun parts hparts => ?_
    refine yields_pure (optNode_some (nodeOf_make ?_ fun key hkey => by cases hkey))
    exact ⟨fieldOk_truth rfl typeOnly, fieldOk_node rfl hparts.1, fieldOk_node rfl hparts.2, trivial⟩

theorem importDeclaration_ok : Yields (importDeclaration source head children) AnyNode := by
  unfold importDeclaration
  split
  · exact yields_ok (nodeOf_bare rfl head).any
  · refine importClause_ok.bind fun clause hclause => ?_
    refine (stringLiteral_ok source _).bind fun module hmodule => ?_
    exact yields_pure (anyNode_make rfl ⟨fieldOk_node rfl hclause,
      fieldOk_node rfl (optNode_some hmodule), trivial⟩)

/-! ## Exports -/

theorem exportValue_ok {modifiers : List ModifierKind} {value : ReadNode}
    (hvalue : Conforming value) :
    Yields (exportValue source head children modifiers value).result AnyNode := by
  unfold exportValue
  dsimp only
  split
  · exact classDeclaration_ok hvalue.below
  split
  · exact functionDeclaration_ok hvalue.below
  · simp only [Built.result_bind, Built.result_lift, Built.result_pure]
    refine hvalue.self.expression.bind fun expression hexpression => ?_
    exact yields_ok (anyNode_make rfl ⟨fieldOk_truth rfl _, fieldOk_node rfl hexpression, trivial⟩)

theorem exportSpecifier_ok {c : ReadNode} :
    Yields (exportSpecifier source c) (NodeOf [.exportSpecifier]) := by
  have hspecifier : ∀ property name, OptNode [.identifier] property → OptNode [.identifier] name →
      NodeOf [.exportSpecifier] (make .exportSpecifier c.head
        [("propertyName", property), ("name", name)]) :=
    fun property name hproperty hname =>
      nodeOf_make ⟨fieldOk_node rfl hproperty, fieldOk_node rfl hname, trivial⟩
        fun key hkey => by cases hkey
  unfold exportSpecifier
  dsimp only
  split
  · refine (identifierOf_ok source _).bind fun property hproperty => ?_
    refine (identifierOf_ok source _).bind fun name hname => ?_
    exact yields_pure (hspecifier property name hproperty hname)
  · refine Yields.bind (R := OptNode [.identifier]) (yields_ok optNode_none)
      fun property hproperty => ?_
    refine (identifierOf_ok source _).bind fun name hname => ?_
    exact yields_pure (hspecifier property name hproperty hname)

theorem exportClause_ok {c : Option ReadNode} :
    Yields (exportClause source c) (OptNode [.namedExports]) := by
  cases c with
  | none => exact yields_ok optNode_none
  | some clause =>
    unfold exportClause
    refine (yields_decodeEach fun d _ => exportSpecifier_ok).bind fun elements helements => ?_
    refine yields_pure (optNode_some (nodeOf_make ⟨fieldOk_nodes rfl helements, trivial⟩
      fun key hkey => ?_))
    rw [List.mem_singleton.mp hkey]
    exact ⟨_, List.mem_cons_self ..⟩

theorem exportDeclaration_ok : Yields (exportDeclaration source head children) AnyNode := by
  have hnode : ∀ clause module, OptNode [.namedExports] clause → OptNode [.stringLiteral] module →
      AnyNode (make .exportDeclaration head
        [("exportClause", clause), ("moduleSpecifier", module)]) :=
    fun clause module hclause hmodule =>
      anyNode_make rfl ⟨fieldOk_node rfl hclause, fieldOk_node rfl hmodule, trivial⟩
  unfold exportDeclaration
  dsimp only
  refine exportClause_ok.bind fun clause hclause => ?_
  split
  · exact yields_pure (unknown_any head)
  · split
    · exact Yields.bind (R := OptNode [.stringLiteral]) (yields_ok optNode_none)
        fun module hmodule => yields_pure (hnode _ module hclause hmodule)
    next c _ =>
      exact Yields.bind ((stringLiteral_ok source c.head).map fun v hv => optNode_some hv)
        fun module hmodule => yields_pure (hnode _ module hclause hmodule)

theorem exportedValue_conforming (h : AllConforming children) :
    ∀ d, exportedValue? children = some d → Conforming d := by
  intro d hd
  unfold exportedValue? at hd
  cases hat : Cst.childAt? "value" children with
  | some c => rw [hat] at hd; exact h.childAt _ d (hat.trans hd)
  | none =>
    rw [hat] at hd
    have hd : (if (Cst.tokens children).contains "=" then
        (Cst.withoutComments (Cst.named children)).head? else none) = some d := hd
    split at hd
    · exact h.named.filter _ d (List.mem_of_head? hd)
    · cases hd

theorem exportStatement_ok (h : AllConforming children) :
    Yields (exportStatement source head children inherited).result NodesOk := by
  unfold exportStatement
  dsimp only
  split
  next declaration hdeclaration => exact (h.childAt _ declaration hdeclaration).self.statement _
  next =>
    split
    next value hvalue =>
      simp only [Built.result_bind, Built.result_pure]
      refine (exportValue_ok (exportedValue_conforming h value hvalue)).bind fun node hnode => ?_
      exact yields_ok (nodesOk_singleton hnode)
    next =>
      simp only [Built.result_bind, Built.result_lift, Built.result_pure]
      exact exportDeclaration_ok.bind fun node hnode => yields_ok (nodesOk_singleton hnode)

/-! ## Modules -/

/-- The kinds of node that name a module. -/
abbrev moduleNameKinds : List SyntaxKind := [.identifier, .stringLiteral]

/-- The kinds of node that stand as the body of a module. -/
abbrev moduleBodyKinds : List SyntaxKind := [.moduleBlock, .moduleDeclaration]

/-- A module with a name, and a body that is a block of statements or one more module. -/
theorem nodeOf_module {flags : Nat} (modifiers : List (String × Option Json)) {name : Json}
    {body : Option Json} (hmodifiers : FieldsOk .moduleDeclaration modifiers)
    (hname : NodeOf moduleNameKinds name) (hbody : OptNode moduleBodyKinds body) :
    NodeOf [.moduleDeclaration] (flagged .moduleDeclaration head flags
      (modifiers ++ [("name", some name), ("body", body)])) := by
  refine nodeOf_flagged ?_ fun key hkey => ?_
  · induction modifiers with
    | nil => exact ⟨fieldOk_node rfl (optNode_some hname), fieldOk_node rfl hbody, trivial⟩
    | cons f rest ih => exact ⟨hmodifiers.1, ih hmodifiers.2⟩
  · rw [List.mem_singleton.mp hkey]
    exact ⟨name, List.mem_append_right _ (List.mem_cons_self ..)⟩

/-- The name of a module that is written as an identifier. -/
theorem moduleName_ok (head : CstHead) {text : String} (hne : text ≠ "")
    (hformed : Text.isWellFormed text = true) :
    NodeOf moduleNameKinds (make .identifier head [("text", some (.str text))]) := by
  refine (identifierNamed_ok head hformed _ (identifierNamed_of_ne head hne)).mono fun k hk => ?_
  rw [List.mem_singleton.mp hk]
  exact List.mem_cons_self ..

theorem innerModules_ok (head nameHead : CstHead) (flags : Nat) {names : List String}
    {body : Option Json} (hnames : ∀ s ∈ names, s ≠ "" ∧ Text.isWellFormed s = true)
    (hbody : OptNode moduleBodyKinds body) :
    OptNode moduleBodyKinds (innerModules head nameHead flags names body) := by
  unfold innerModules
  induction names with
  | nil => exact hbody
  | cons segment rest ih =>
    have hrest := ih fun s hs => hnames s (List.mem_cons_of_mem _ hs)
    obtain ⟨hsegment, hformed⟩ := hnames segment (List.mem_cons_self ..)
    rw [List.foldr_cons, identifierNamed_of_ne nameHead hsegment]
    refine optNode_some (NodeOf.mono ?_
      (nodeOf_module [] trivial (moduleName_ok nameHead hsegment hformed) hrest))
    decide

theorem moduleBody_ok {c : Option ReadNode} (h : ∀ d, c = some d → Conforming d) :
    Yields (block .moduleBlock c).result (OptNode moduleBodyKinds) :=
  (block_ok rfl h).mono fun _ hbody => hbody.mono (by decide)

theorem moduleDeclaration_ok (h : AllConforming children) :
    Yields (moduleDeclaration source head children inherited).result AnyNode := by
  intro v hv
  obtain ⟨body, hread, hcases⟩ := moduleDeclaration_cases hv
  have hbody := moduleBody_ok (h.childAt "body") body hread
  cases hcases with
  | unnamed => exact unknown_any head
  | quoted nameNode text modifiers _ _ htext hmodifiers =>
    have hformed := isWellFormed_unquote (source.yields_text nameNode.head text htext)
    have hname : NodeOf [.stringLiteral] (make .stringLiteral nameNode.head _) :=
      nodeOf_text rfl rfl nameNode.head hformed
    exact (nodeOf_module [("modifiers", modifiers)]
      ⟨modifiers_ok source inherited children modifiers hmodifiers _, trivial⟩
      (hname.mono (by decide)) hbody).any
  | segmentless => exact unknown_any head
  | dotted nameNode text first rest modifiers _ _ htext hsegments hmodifiers =>
    have hnames : ∀ s ∈ first :: rest, s ≠ "" ∧ Text.isWellFormed s = true := fun s hs =>
      ⟨segments_ne (hsegments ▸ hs),
        isWellFormed_of_mem_segments (source.yields_text nameNode.head text htext)
          (hsegments ▸ hs)⟩
    obtain ⟨hfirst, hformed⟩ := hnames first (List.mem_cons_self ..)
    rw [identifierNamed_of_ne nameNode.head hfirst]
    exact (nodeOf_module [("modifiers", modifiers)]
      ⟨modifiers_ok source inherited children modifiers hmodifiers _, trivial⟩
      (moduleName_ok nameNode.head hfirst hformed)
      (innerModules_ok head nameNode.head _ (fun s hs => hnames s (List.mem_cons_of_mem _ hs))
        hbody)).any

theorem ambientDeclaration_ok (h : AllConforming children) :
    Yields (ambientDeclaration head children inherited).result NodesOk := by
  unfold ambientDeclaration
  dsimp only
  split
  · simp only [Built.result_bind, Built.result_pure]
    refine (moduleBody_ok (h.childOfType ["statement_block"])).bind fun body hbody => ?_
    have hglobal : "global" ≠ "" := by decide
    have hformed : Text.isWellFormed "global" = true := by decide +kernel
    rw [identifierNamed_of_ne head hglobal]
    exact yields_ok (nodesOk_singleton (nodeOf_module [("modifiers", _)]
      ⟨modifierNodes_ok _ _, trivial⟩ (moduleName_ok head hglobal hformed) hbody).any)
  · simp only [Built.result_bind, Built.result_forEach, Built.result_pure]
    refine (yields_decodeEach fun c hc => (h.named.filter _ c hc).self.statement _).bind
      fun groups hgroups => ?_
    exact yields_ok (nodesOk_flatten hgroups)

/-! ## Statements -/

theorem plainExpression_ok {inner : List ReadNode} (h : AllConforming inner) :
    Yields (expressionStatement.plain head inner).result NodesOk := by
  unfold expressionStatement.plain
  simp only [Built.result_bind, Built.result_lift, Built.result_pure]
  refine (expressionOf_ok fun d hd => h d (List.mem_of_head? hd)).bind
    fun expression hexpression => ?_
  exact yields_ok (nodesOk_singleton (anyNode_make rfl ⟨fieldOk_node rfl hexpression, trivial⟩))

theorem expressionStatement_ok (h : AllConforming children) :
    Yields (expressionStatement source head children inherited).result NodesOk := by
  have hinner : AllConforming (Cst.withoutComments (Cst.named children)) := h.named.filter _
  unfold expressionStatement
  dsimp only
  split
  next only honly =>
    have hconforming : Conforming only := hinner only (by rw [honly]; exact List.mem_cons_self ..)
    split
    · simp only [Built.result_bind, Built.result_pure]
      refine (moduleDeclaration_ok hconforming.below).bind fun node hnode => ?_
      exact yields_ok (nodesOk_singleton hnode)
    · exact plainExpression_ok (honly ▸ hinner)
  next => exact plainExpression_ok hinner

/-- A statement that becomes one node. -/
private theorem yields_singleton {x : Decoded Json} (h : Yields x AnyNode) :
    Yields (do return [← x]) NodesOk :=
  h.bind fun _ hnode => yields_pure (nodesOk_singleton hnode)

theorem plainStatement_own {type : String} {kind : SyntaxKind}
    (h : StatementShape.ofType type = .plain kind) : ownKeys kind = [] := by
  unfold StatementShape.ofType at h
  split at h <;> cases h <;> rfl

theorem statement_ok (h : AllConforming children) :
    Yields (statement source head children inherited).result NodesOk := by
  unfold statement
  split
  · -- functions
    simp only [Built.result_bind, Built.result_pure]
    exact yields_singleton (functionDeclaration_ok h)
  · -- classes
    simp only [Built.result_bind, Built.result_pure]
    exact yields_singleton (classDeclaration_ok h)
  · -- interfaces
    simp only [Built.result_bind, Built.result_lift, Built.result_pure]
    exact yields_singleton (interfaceDeclaration_ok h)
  · -- type aliases
    simp only [Built.result_bind, Built.result_lift, Built.result_pure]
    exact yields_singleton (typeAliasDeclaration_ok h)
  · -- enumerations
    simp only [Built.result_bind, Built.result_lift, Built.result_pure]
    exact yields_singleton enumDeclaration_ok
  · -- variables
    simp only [Built.result_bind, Built.result_lift, Built.result_pure]
    exact yields_singleton (variableStatement_ok h)
  · -- imports
    simp only [Built.result_bind, Built.result_lift, Built.result_pure]
    exact yields_singleton importDeclaration_ok
  · -- exports
    exact exportStatement_ok h
  · -- ambient declarations
    exact ambientDeclaration_ok h
  · -- modules
    simp only [Built.result_bind, Built.result_pure]
    exact yields_singleton (moduleDeclaration_ok h)
  · -- expressions
    exact expressionStatement_ok h
  · -- comments become nothing
    exact yields_ok nodesOk_nil
  next kind hkind =>
    -- statements that are kept by their kind
    exact yields_ok (nodesOk_singleton (nodeOf_bare (plainStatement_own hkind) head).any)
  · -- statements of no known type
    exact yields_ok (nodesOk_singleton (unknown_any head))

/-! ## The whole tree -/

/-- **Every reading of every node keeps to the schema.** -/
theorem conforming_readTree (source : Source) (tree : SourceTree) :
    Conforming (readTree source tree) := by
  refine Cst.eachNode_annotate (fun head children h => ?_) tree
  exact ⟨expression_ok h, binding_ok h, typeNode_ok h, fun inherited => statement_ok h⟩

/-- **The tree of a file keeps to the schema,** and at its top it is the node of a file. -/
theorem nodeOf_fileNode (source : Source) (fileName : Option String) (tree : SourceTree) :
    Yields (fileNode source fileName tree).result (NodeOf [.sourceFile]) := by
  unfold fileNode
  simp only [Built.result_bind, Built.result_pure]
  refine (statementsAmong_ok (conforming_readTree source tree).below).bind
    fun statements hstatements => ?_
  refine yields_ok (nodeOf_make ⟨?_, fieldOk_nodes rfl hstatements, trivial⟩ fun key hkey => ?_)
  · cases fileName with
    | none => exact fieldOk_none
    | some name => exact fieldOk_path rfl name
  · rw [List.mem_singleton.mp hkey]
    exact ⟨_, List.mem_cons_of_mem _ (List.mem_cons_self ..)⟩

/-! ## The linked tree -/

/-- The schema knows no links. -/
theorem linkless_of_conforms {fields : Fields} (h : Conforms fields) : Node.Linkless fields := by
  obtain ⟨kind, hself⟩ := h
  intro f hf hkey
  obtain ⟨form, hform, -⟩ := hself.fits f hf
  rw [hkey] at hform
  cases hform

/-- **What holds of all objects and is kept by a link holds of all objects in the tree of a file,**
if the file has one: otherwise a text in it cannot be decoded. -/
theorem build_each (source : Source) (fileName : Option String) (tree : SourceTree)
    {P : Fields → Prop} (hlink : ∀ (around : Option Fields) (fields : Fields),
      Node.Linkless fields → P fields → P (Node.linked (around.map .obj) fields))
    (h : Yields (fileNode source fileName tree).result fun node => node.EachObject P) :
    (build source fileName tree).result = .error .notUtf8 ∨
      ∃ fields, (fileNode source fileName tree).result = .ok (.obj fields) ∧
        (build source fileName tree).result = .ok (.obj (Node.linked none fields)) ∧
        (Json.obj (Node.linked none fields)).EachObject P := by
  unfold build
  rw [Built.result_bind]
  cases hnode : (fileNode source fileName tree).result with
  | error fault => exact .inl rfl
  | ok node =>
    obtain ⟨⟨fields, rfl, -⟩, hconforms⟩ := nodeOf_fileNode source fileName tree node hnode
    have hlinked := Node.eachObject_linkUnder hlink
      (hconforms.mono fun _ => linkless_of_conforms) (h _ hnode) none fun _ hnone => by cases hnone
    refine .inr ⟨fields, rfl, ?_, ?_⟩
    · show Except.ok (Node.linkUnder none (.obj fields)) = _
      rw [Node.linkUnder_obj]
    · rwa [Option.map_none, Node.linkUnder_obj] at hlinked

end DeclCatalogue.Tree
