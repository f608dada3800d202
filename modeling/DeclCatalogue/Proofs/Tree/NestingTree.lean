import DeclCatalogue.Proofs.Tree.ConformingTree
import DeclCatalogue.Proofs.Tree.Nesting

/-!
# Built trees nest like the source

Declarations and statements, each from the readings of its children, and at the end the tree of a
file: if the nodes of a concrete tree are laid out over the source, every reading of every node
nests (`nesting_readTree`), and so do all objects in the tree of the file (`build_nested`).

Some statements are not made of their own node alone. One that wraps others hands on what is inside,
which lies in its range and keeps its order. A module with a dotted name becomes a chain of modules
that all take its range, and a list of variables takes the range of its statement. Ranges nest in
all of them because to lie inside a range may be to take all of it.
-/

namespace DeclCatalogue.Tree

open Json (lookup)
open Cst (EachNode Ranged Row)
open Node (linked linkUnder linkUnder_obj lookup_linked lookup_linked_int mem_linked Linkless)

variable {source : Source} {head : CstHead} {children : List ReadNode}
  {inherited : List ModifierKind} {start stop : Nat}

/-! ## Blocks and declarations -/

theorem statementsAmong_in (h : Row Nesting start stop children) :
    Yields (statementsAmong children).result (NodesIn start stop) := by
  unfold statementsAmong
  simp only [Built.result_bind, Built.result_forEach, Built.result_pure]
  refine (nodesIn_groups h.named fun c hc => hc.self.2.statement []).bind fun groups hgroups => ?_
  exact yields_ok hgroups

theorem block_in {kind : SyntaxKind} {c : Option ReadNode} (h : HeldIn start stop c) :
    Yields (block kind c).result (OptIn start stop) := by
  cases c with
  | none => exact yields_ok optIn_none
  | some c =>
    have hc := h c rfl
    unfold block
    simp only [Built.result_bind, Built.result_pure]
    refine (statementsAmong_in hc.holds.parts.row).bind fun statements hstatements => ?_
    exact yields_ok (optIn_child hc (fieldIn_nodes hstatements))

theorem functionDeclaration_in (h : Parts head children) :
    Yields (functionDeclaration source head children inherited).result
      (NodeIn head.start head.stop) := by
  unfold functionDeclaration
  simp only [Built.result_bind, Built.result_lift, Built.result_pure]
  refine (modifiers_in source inherited children).bind fun modifiers hmodifiers => ?_
  refine (identifierOf_in (h.row.childAt "name")).bind fun name hname => ?_
  refine (typeParameters_in h).bind fun typeParameters htypeParameters => ?_
  refine (parameters_in (h.row.childAt "parameters")).bind fun parameters hparameters => ?_
  refine (typeOf_in (h.row.childAt "return_type")).bind fun type htype => ?_
  refine (block_in (h.row.childAt "body")).bind fun body hbody => ?_
  exact yields_ok (nodeIn_make h.forward ⟨hmodifiers _ _, fieldIn_node hname, htypeParameters,
    hparameters, fieldIn_node htype, fieldIn_node hbody⟩)

theorem classMember_in (c : ReadNode) (h : Nesting c) :
    Yields (classMember source c).result (NodesIn c.head.start c.head.stop) := by
  have hparts := h.parts
  unfold classMember
  split
  · -- comments and decorators are passed over
    exact yields_ok nodesIn_nil
  · -- a method
    simp only [Built.result_bind, Built.result_lift, Built.result_pure]
    refine (yields_any _).bind fun text _ => ?_
    refine (modifiers_in source [] c.children).bind fun modifiers hmodifiers => ?_
    refine Yields.bind (R := OptIn c.head.start c.head.stop) ?_ fun name hname => ?_
    · split
      · exact yields_ok optIn_none
      · exact propertyName_in (hparts.row.childAt "name")
    refine (typeParameters_in hparts).bind fun typeParameters htypeParameters => ?_
    refine (parameters_in (hparts.row.childAt "parameters")).bind fun parameters hparameters => ?_
    refine (typeOf_in (hparts.row.childAt "return_type")).bind fun type htype => ?_
    refine (block_in (hparts.row.childAt "body")).bind fun body hbody => ?_
    exact yields_ok (nodesIn_singleton (nodeIn_make hparts.forward ⟨hmodifiers _ _,
      fieldIn_node hname, htypeParameters, hparameters, fieldIn_node htype, fieldIn_node hbody⟩))
  · -- a property
    simp only [Built.result_bind, Built.result_lift, Built.result_pure]
    refine (modifiers_in source [] c.children).bind fun modifiers hmodifiers => ?_
    refine (propertyName_in (hparts.row.childAt "name")).bind fun name hname => ?_
    refine (typeOf_in (hparts.row.childAt "type")).bind fun type htype => ?_
    refine (expressionOf_in (hparts.row.childAt "value")).bind fun initializer hinitializer => ?_
    exact yields_ok (nodesIn_singleton (nodeIn_make hparts.forward ⟨hmodifiers _ _,
      fieldIn_node hname, fieldIn_node htype, fieldIn_node hinitializer⟩))
  · -- anything else
    exact yields_ok (nodesIn_singleton (nodeIn_make hparts.forward trivial))

theorem classDeclaration_in (h : Parts head children) :
    Yields (classDeclaration source head children inherited).result
      (NodeIn head.start head.stop) := by
  have hbody := row_childrenOf (h.row.childAt "body")
  unfold classDeclaration
  simp only [Built.result_bind, Built.result_lift, Built.result_pure, Built.result_forEach]
  refine (modifiers_in source inherited children).bind fun modifiers hmodifiers => ?_
  refine (identifierOf_in (h.row.childAt "name")).bind fun name hname => ?_
  refine (typeParameters_in h).bind fun typeParameters htypeParameters => ?_
  refine (nodesIn_groups hbody.named classMember_in).bind fun members hmembers => ?_
  exact yields_ok (nodeIn_make h.forward ⟨hmodifiers _ _, fieldIn_node hname, htypeParameters,
    fieldIn_nodes hmembers⟩)

theorem interfaceDeclaration_in (h : Parts head children) :
    Yields (interfaceDeclaration source head children inherited) (NodeIn head.start head.stop) := by
  have hbody : HeldIn head.start head.stop (Cst.childAt? "body" children
      <|> Cst.childOfType? ["interface_body", "object_type"] children) := by
    intro d hd
    cases hat : Cst.childAt? "body" children with
    | none => rw [hat] at hd; exact h.row.childOfType _ d hd
    | some c => rw [hat] at hd; exact h.row.childAt _ d (hat.trans hd)
  unfold interfaceDeclaration
  refine (modifiers_in source inherited children).bind fun modifiers hmodifiers => ?_
  refine (identifierOf_in (h.row.childAt "name")).bind fun name hname => ?_
  refine (typeParameters_in h).bind fun typeParameters htypeParameters => ?_
  refine (typeMembers_in (row_childrenOf hbody)).bind fun members hmembers => ?_
  exact yields_pure (nodeIn_make h.forward ⟨hmodifiers _ _, fieldIn_node hname, htypeParameters,
    hmembers⟩)

theorem typeAliasDeclaration_in (h : Parts head children) :
    Yields (typeAliasDeclaration source head children inherited) (NodeIn head.start head.stop) := by
  unfold typeAliasDeclaration
  refine (modifiers_in source inherited children).bind fun modifiers hmodifiers => ?_
  refine (identifierOf_in (h.row.childAt "name")).bind fun name hname => ?_
  refine (typeParameters_in h).bind fun typeParameters htypeParameters => ?_
  refine (typeOf_in (h.row.childAt "value")).bind fun type htype => ?_
  exact yields_pure (nodeIn_make h.forward ⟨hmodifiers _ _, fieldIn_node hname, htypeParameters,
    fieldIn_node htype⟩)

theorem enumDeclaration_in (h : Parts head children) :
    Yields (enumDeclaration source head children inherited) (NodeIn head.start head.stop) := by
  unfold enumDeclaration
  refine (modifiers_in source inherited children).bind fun modifiers hmodifiers => ?_
  refine (identifierOf_in (h.row.childAt "name")).bind fun name hname => ?_
  exact yields_pure (nodeIn_make h.forward ⟨hmodifiers _ _, fieldIn_node hname⟩)

/-! ## Variables -/

theorem variableDeclaration_in (c : ReadNode) (h : Nesting c) :
    Yields (variableDeclaration c) (NodeIn c.head.start c.head.stop) := by
  have hparts := h.parts
  unfold variableDeclaration
  refine (bindingOf_in (hparts.row.childAt "name")).bind fun name hname => ?_
  refine (typeOf_in (hparts.row.childAt "type")).bind fun type htype => ?_
  refine (expressionOf_in (hparts.row.childAt "value")).bind fun initializer hinitializer => ?_
  exact yields_pure (nodeIn_make hparts.forward ⟨fieldIn_node hname, fieldIn_node htype,
    fieldIn_node hinitializer⟩)

theorem variableStatement_in (h : Parts head children) :
    Yields (variableStatement head children inherited) (NodeIn head.start head.stop) := by
  unfold variableStatement
  refine (nodesIn_decodeEach (h.row.named.filter _) variableDeclaration_in).bind
    fun declarations hdeclarations => ?_
  exact yields_pure (nodeIn_make h.forward ⟨fieldIn_modifierNodes inherited,
    fieldIn_node (optIn_some (nodeIn_flagged h.forward (fieldIn_nodes hdeclarations)))⟩)

/-! ## Imports -/

theorem importSpecifier_in (c : ReadNode) (h : Nesting c) :
    Yields (importSpecifier source c) (NodeIn c.head.start c.head.stop) := by
  have hparts := h.parts
  have hname := hparts.row.childAt "name"
  unfold importSpecifier
  dsimp only
  split
  next aliasNode halias =>
    refine (identifierOf_in hname).bind fun property hproperty => ?_
    refine (identifierOf_in (c := some aliasNode) fun d hd =>
      hparts.row.childAt _ d (halias.trans hd)).bind fun name hname => ?_
    exact yields_pure (nodeIn_make hparts.forward ⟨fieldIn_node hproperty, fieldIn_node hname⟩)
  next =>
    refine (identifierOf_in hname).bind fun name hname => ?_
    exact yields_pure (nodeIn_make hparts.forward (fieldIn_node hname))

/-- The name and the bindings of an import lie inside a range. -/
def ImportPartsIn (start stop : Nat) (found : Option Json × Option Json) : Prop :=
  OptIn start stop found.1 ∧ OptIn start stop found.2

theorem importPart_in {found : Option Json × Option Json} (hfound : ImportPartsIn start stop found)
    {c : ReadNode} (h : Cst.Held Nesting start stop c) :
    Yields (importPart source found c) (ImportPartsIn start stop) := by
  have hparts := h.holds.parts
  unfold importPart
  split
  · refine (identifierOf_in (c := some c) fun d hd => Option.some.inj hd ▸ h).bind
      fun name hname => ?_
    exact yields_pure ⟨hname, hfound.2⟩
  split
  · refine (identifierOf_in (hparts.row.named.childOfType ["identifier"])).bind
      fun name hname => ?_
    exact yields_pure ⟨hfound.1, optIn_child h (fieldIn_node hname)⟩
  split
  · refine (nodesIn_decodeEach (hparts.row.named.filter _) importSpecifier_in).bind
      fun elements helements => ?_
    exact yields_pure ⟨hfound.1, optIn_child h (fieldIn_nodes helements)⟩
  · exact yields_ok hfound

theorem importParts_in {found : Option Json × Option Json}
    (hfound : ImportPartsIn start stop found) {nodes : List ReadNode}
    (h : ∀ c ∈ nodes, Cst.Held Nesting start stop c) :
    Yields (importParts source found nodes) (ImportPartsIn start stop) := by
  induction nodes generalizing found with
  | nil => exact yields_ok hfound
  | cons c rest ih =>
    rw [importParts]
    refine (importPart_in hfound (h c (List.mem_cons_self ..))).bind fun found hfound => ?_
    exact ih hfound fun d hd => h d (List.mem_cons_of_mem _ hd)

theorem importClause_in {typeOnly : Bool} {c : Option ReadNode} (h : HeldIn start stop c) :
    Yields (importClause source typeOnly c) (OptIn start stop) := by
  cases c with
  | none => exact yields_ok optIn_none
  | some clause =>
    have hclause := h clause rfl
    unfold importClause
    refine (importParts_in ⟨optIn_none, optIn_none⟩ hclause.holds.parts.row.named.held).bind
      fun parts hfound => ?_
    exact yields_pure (optIn_child hclause ⟨fieldIn_truth typeOnly, fieldIn_node hfound.1,
      fieldIn_node hfound.2⟩)

/-- The child that names the module of an import or an export. -/
theorem specifier_in (h : Parts head children) : HeldIn head.start head.stop
    (Cst.childAt? "source" children <|> Cst.childOfType? ["string"] children) := by
  intro d hd
  cases hat : Cst.childAt? "source" children with
  | none => rw [hat] at hd; exact h.row.childOfType _ d hd
  | some c => rw [hat] at hd; exact h.row.childAt _ d (hat.trans hd)

theorem importDeclaration_in (h : Parts head children) :
    Yields (importDeclaration source head children) (NodeIn head.start head.stop) := by
  have hspecifier := specifier_in h
  unfold importDeclaration
  split
  · exact yields_ok (nodeIn_make h.forward trivial)
  next specifier hfound =>
    obtain ⟨hnesting, hstart, hstop⟩ := hspecifier specifier hfound
    refine (importClause_in (h.row.childOfType ["import_clause"])).bind fun clause hclause => ?_
    refine (stringLiteral_in hnesting.parts.forward).bind fun module hmodule => ?_
    exact yields_pure (nodeIn_make h.forward ⟨fieldIn_node hclause,
      fieldIn_node (optIn_some (hmodule.mono hstart hstop))⟩)

/-! ## Exports -/

theorem exportValue_in (h : Parts head children) {modifiers : List ModifierKind}
    {value : ReadNode} (hvalue : Cst.Held Nesting head.start head.stop value) :
    Yields (exportValue source head children modifiers value).result
      (NodeIn head.start head.stop) := by
  obtain ⟨hnesting, hstart, hstop⟩ := hvalue
  unfold exportValue
  dsimp only
  split
  · exact (classDeclaration_in hnesting.parts).mono fun _ hv => hv.mono hstart hstop
  split
  · exact (functionDeclaration_in hnesting.parts).mono fun _ hv => hv.mono hstart hstop
  · simp only [Built.result_bind, Built.result_lift, Built.result_pure]
    refine hnesting.self.2.expression.bind fun expression hexpression => ?_
    exact yields_ok (nodeIn_make h.forward ⟨fieldIn_truth _,
      fieldIn_node (hexpression.mono hstart hstop)⟩)

theorem exportSpecifier_in (c : ReadNode) (h : Nesting c) :
    Yields (exportSpecifier source c) (NodeIn c.head.start c.head.stop) := by
  have hparts := h.parts
  have hname := hparts.row.childAt "name"
  have hboth : HeldIn c.head.start c.head.stop
      (Cst.childAt? "alias" c.children <|> Cst.childAt? "name" c.children) := by
    intro d hd
    cases hat : Cst.childAt? "alias" c.children with
    | none => rw [hat] at hd; exact hname d hd
    | some a => rw [hat] at hd; exact hparts.row.childAt _ d (hat.trans hd)
  have hspecifier : ∀ property name, OptIn c.head.start c.head.stop property →
      OptIn c.head.start c.head.stop name → NodeIn c.head.start c.head.stop
        (make .exportSpecifier c.head [("propertyName", property), ("name", name)]) :=
    fun property name hproperty hname =>
      nodeIn_make hparts.forward ⟨fieldIn_node hproperty, fieldIn_node hname⟩
  unfold exportSpecifier
  dsimp only
  split
  · refine (identifierOf_in hname).bind fun property hproperty => ?_
    refine (identifierOf_in hboth).bind fun name hname => ?_
    exact yields_pure (hspecifier property name hproperty hname)
  · refine Yields.bind (R := OptIn c.head.start c.head.stop) (yields_ok optIn_none)
      fun property hproperty => ?_
    refine (identifierOf_in hboth).bind fun name hname => ?_
    exact yields_pure (hspecifier property name hproperty hname)

theorem exportClause_in {c : Option ReadNode} (h : HeldIn start stop c) :
    Yields (exportClause source c) (OptIn start stop) := by
  cases c with
  | none => exact yields_ok optIn_none
  | some clause =>
    have hclause := h clause rfl
    have hrow := hclause.holds.parts.row
    unfold exportClause
    refine (nodesIn_decodeEach (hrow.named.filter _) exportSpecifier_in).bind
      fun elements helements => ?_
    exact yields_pure (optIn_child hclause (fieldIn_nodes helements))

theorem exportDeclaration_in (h : Parts head children) :
    Yields (exportDeclaration source head children) (NodeIn head.start head.stop) := by
  have hspecifier := specifier_in h
  have hnode : ∀ clause module, OptIn head.start head.stop clause →
      OptIn head.start head.stop module → NodeIn head.start head.stop (make .exportDeclaration head
        [("exportClause", clause), ("moduleSpecifier", module)]) :=
    fun clause module hclause hmodule =>
      nodeIn_make h.forward ⟨fieldIn_node hclause, fieldIn_node hmodule⟩
  unfold exportDeclaration
  dsimp only
  refine (exportClause_in (h.row.named.childOfType ["export_clause"])).bind
    fun clause hclause => ?_
  split
  · exact yields_pure (nodeIn_make h.forward trivial)
  · split
    · exact Yields.bind (R := OptIn head.start head.stop) (yields_ok optIn_none)
        fun module hmodule => yields_pure (hnode _ module hclause hmodule)
    next c hfound =>
      have hheld := hspecifier c hfound
      have hliteral : Yields (some <$> stringLiteral source c.head) (OptIn head.start head.stop) :=
        yields_widen hheld ((stringLiteral_in hheld.holds.parts.forward).map fun _ => optIn_some)
      exact hliteral.bind fun module hmodule => yields_pure (hnode _ module hclause hmodule)

theorem exportedValue_in (h : Parts head children) :
    HeldIn head.start head.stop (exportedValue? children) := by
  intro d hd
  unfold exportedValue? at hd
  cases hat : Cst.childAt? "value" children with
  | some c => rw [hat] at hd; exact h.row.childAt _ d (hat.trans hd)
  | none =>
    rw [hat] at hd
    have hd : (if (Cst.tokens children).contains "=" then
        (Cst.withoutComments (Cst.named children)).head? else none) = some d := hd
    split at hd
    · exact (h.row.named.filter _).first d hd
    · cases hd

/-- An exported declaration is handed on as it is. -/
theorem exportStatement_in (h : Parts head children) :
    Yields (exportStatement source head children inherited).result
      (NodesIn head.start head.stop) := by
  unfold exportStatement
  dsimp only
  split
  next declaration hfound =>
    obtain ⟨hnesting, hstart, hstop⟩ := h.row.childAt _ declaration hfound
    exact (hnesting.self.2.statement _).mono fun _ hvs => hvs.mono hstart hstop
  next =>
    split
    next value hfound =>
      simp only [Built.result_bind, Built.result_pure]
      refine (exportValue_in h (exportedValue_in h value hfound)).bind fun node hnode => ?_
      exact yields_ok (nodesIn_singleton hnode)
    next =>
      simp only [Built.result_bind, Built.result_lift, Built.result_pure]
      exact (exportDeclaration_in h).bind fun node hnode => yields_ok (nodesIn_singleton hnode)

/-! ## Modules -/

/-- The modules of a dotted name all take the range of the whole module. -/
theorem innerModules_in {nameHead : CstHead} (flags : Nat) (names : List String)
    {body : Option Json} (hforward : head.start ≤ head.stop)
    (hname : ∀ text, OptIn head.start head.stop (identifierNamed nameHead text))
    (hbody : OptIn head.start head.stop body) :
    OptIn head.start head.stop (innerModules head nameHead flags names body) := by
  unfold innerModules
  induction names with
  | nil => exact hbody
  | cons segment rest ih =>
    rw [List.foldr_cons]
    exact optIn_some (nodeIn_flagged hforward ⟨fieldIn_node (hname segment), fieldIn_node ih⟩)

theorem moduleDeclaration_in (h : Parts head children) :
    Yields (moduleDeclaration source head children inherited).result
      (NodeIn head.start head.stop) := by
  intro v hv
  obtain ⟨body, hread, hcases⟩ := moduleDeclaration_cases hv
  have hbody := block_in (h.row.childAt "body") body hread
  cases hcases with
  | unnamed => exact nodeIn_make h.forward trivial
  | quoted nameNode text modifiers hfound _ _ hmodifiers =>
    obtain ⟨hnesting, hstart, hstop⟩ := h.row.childAt _ nameNode hfound
    have hname : NodeIn nameNode.head.start nameNode.head.stop
        (make .stringLiteral nameNode.head [("text", some (.str (unquote text)))]) :=
      nodeIn_make hnesting.parts.forward (fieldIn_leaf rfl)
    exact nodeIn_flagged h.forward
      ⟨modifiers_in source inherited children modifiers hmodifiers _ _,
        fieldIn_node (optIn_some (hname.mono hstart hstop)), fieldIn_node hbody⟩
  | segmentless => exact nodeIn_make h.forward trivial
  | dotted nameNode text first rest modifiers hfound _ _ _ hmodifiers =>
    obtain ⟨hnesting, hstart, hstop⟩ := h.row.childAt _ nameNode hfound
    have hname : ∀ text, OptIn head.start head.stop (identifierNamed nameNode.head text) :=
      fun text => (identifierNamed_in hnesting.parts.forward text).mono hstart hstop
    exact nodeIn_flagged h.forward
      ⟨modifiers_in source inherited children modifiers hmodifiers _ _, fieldIn_node (hname first),
        fieldIn_node (innerModules_in _ rest h.forward hname hbody)⟩

theorem ambientDeclaration_in (h : Parts head children) :
    Yields (ambientDeclaration head children inherited).result
      (NodesIn head.start head.stop) := by
  unfold ambientDeclaration
  dsimp only
  split
  · simp only [Built.result_bind, Built.result_pure]
    refine (block_in (h.row.childOfType ["statement_block"])).bind fun body hbody => ?_
    exact yields_ok (nodesIn_singleton (nodeIn_flagged h.forward ⟨fieldIn_modifierNodes _,
      fieldIn_node (identifierNamed_in h.forward "global"), fieldIn_node hbody⟩))
  · simp only [Built.result_bind, Built.result_forEach, Built.result_pure]
    refine (nodesIn_groups (h.row.named.filter _) fun c hc => hc.self.2.statement _).bind
      fun groups hgroups => ?_
    exact yields_ok hgroups

/-! ## Statements -/

theorem plainExpression_in (hforward : head.start ≤ head.stop) {inner : List ReadNode}
    (h : Row Nesting head.start head.stop inner) :
    Yields (expressionStatement.plain head inner).result (NodesIn head.start head.stop) := by
  unfold expressionStatement.plain
  simp only [Built.result_bind, Built.result_lift, Built.result_pure]
  refine (expressionOf_in h.first).bind fun expression hexpression => ?_
  exact yields_ok (nodesIn_singleton (nodeIn_make hforward (fieldIn_node hexpression)))

theorem expressionStatement_in (h : Parts head children) :
    Yields (expressionStatement source head children inherited).result
      (NodesIn head.start head.stop) := by
  have hinner : Row Nesting head.start head.stop (Cst.withoutComments (Cst.named children)) :=
    h.row.named.filter _
  unfold expressionStatement
  dsimp only
  split
  next only honly =>
    obtain ⟨hnesting, hstart, hstop⟩ := hinner.held only (honly ▸ List.mem_cons_self ..)
    split
    · simp only [Built.result_bind, Built.result_pure]
      refine (moduleDeclaration_in hnesting.parts).bind fun node hnode => ?_
      exact yields_ok (nodesIn_singleton (hnode.mono hstart hstop))
    · exact plainExpression_in h.forward (honly ▸ hinner)
  next => exact plainExpression_in h.forward hinner

/-- A statement that becomes one node. -/
private theorem yields_single {x : Decoded Json} (h : Yields x (NodeIn start stop)) :
    Yields (do return [← x]) (NodesIn start stop) :=
  h.bind fun _ hnode => yields_pure (nodesIn_singleton hnode)

theorem statement_in (h : Parts head children) :
    Yields (statement source head children inherited).result (NodesIn head.start head.stop) := by
  unfold statement
  split
  · -- functions
    simp only [Built.result_bind, Built.result_pure]
    exact yields_single (functionDeclaration_in h)
  · -- classes
    simp only [Built.result_bind, Built.result_pure]
    exact yields_single (classDeclaration_in h)
  · -- interfaces
    simp only [Built.result_bind, Built.result_lift, Built.result_pure]
    exact yields_single (interfaceDeclaration_in h)
  · -- type aliases
    simp only [Built.result_bind, Built.result_lift, Built.result_pure]
    exact yields_single (typeAliasDeclaration_in h)
  · -- enumerations
    simp only [Built.result_bind, Built.result_lift, Built.result_pure]
    exact yields_single (enumDeclaration_in h)
  · -- variables
    simp only [Built.result_bind, Built.result_lift, Built.result_pure]
    exact yields_single (variableStatement_in h)
  · -- imports
    simp only [Built.result_bind, Built.result_lift, Built.result_pure]
    exact yields_single (importDeclaration_in h)
  · -- exports
    exact exportStatement_in h
  · -- ambient declarations
    exact ambientDeclaration_in h
  · -- modules
    simp only [Built.result_bind, Built.result_pure]
    exact yields_single (moduleDeclaration_in h)
  · -- expressions
    exact expressionStatement_in h
  · -- comments become nothing
    exact yields_ok nodesIn_nil
  · -- statements that are kept by their kind
    exact yields_ok (nodesIn_singleton (nodeIn_make h.forward trivial))
  · -- statements of no known type
    exact yields_ok (nodesIn_singleton (nodeIn_make h.forward trivial))

/-! ## The whole tree -/

/-- **Every reading of every node nests,** if the nodes are laid out over the source. -/
theorem nesting_readTree (source : Source) (tree : SourceTree) :
    EachNode Ranged tree → Nesting (readTree source tree) := by
  induction tree using Cst.induct with
  | node h a cs ih =>
    intro hranged
    obtain ⟨⟨hforward, hinside, hordered⟩, hbelow⟩ := Cst.eachNode_node.mp hranged
    rw [readTree, Cst.annotate_node]
    have hchildren : ∀ d ∈ cs.map (Cst.annotate (reading source)), Nesting d := by
      intro d hd
      obtain ⟨c, hc, rfl⟩ := List.mem_map.mp hd
      exact ih c hc (hbelow c hc)
    -- reading leaves the ranges as they are
    have hinside' : ∀ d ∈ cs.map (Cst.annotate (reading source)),
        h.start ≤ d.head.start ∧ d.head.stop ≤ h.stop := by
      intro d hd
      obtain ⟨c, hc, rfl⟩ := List.mem_map.mp hd
      rw [Cst.head_annotate]
      exact hinside c hc
    have hordered' : (cs.map (Cst.annotate (reading source))).Pairwise
        fun d e => d.head.stop ≤ e.head.start := by
      simpa only [List.pairwise_map, Cst.head_annotate, Cst.children] using hordered
    have hparts : Parts h (cs.map (Cst.annotate (reading source))) :=
      ⟨hforward, fun d hd => ⟨hchildren d hd, (hinside' d hd).1, (hinside' d hd).2⟩, hordered'⟩
    refine Cst.eachNode_node.mpr ⟨⟨⟨hforward, hinside', hordered'⟩, ?_⟩, hchildren⟩
    exact ⟨expression_in hparts, binding_in hparts, typeNode_in hparts,
      fun inherited => statement_in hparts⟩

theorem fileNode_in (source : Source) (fileName : Option String) {tree : SourceTree}
    (h : EachNode Ranged tree) :
    Yields (fileNode source fileName tree).result (NodeIn tree.head.start tree.head.stop) := by
  have hparts := (nesting_readTree source tree h).parts
  have hhead : (readTree source tree).head = tree.head := Cst.head_annotate ..
  unfold fileNode
  simp only [Built.result_bind, Built.result_pure]
  refine (statementsAmong_in hparts.row).bind fun statements hstatements => ?_
  rw [← hhead]
  refine yields_ok (nodeIn_make hparts.forward ⟨?_, fieldIn_nodes hstatements⟩)
  cases fileName with
  | none => exact fieldIn_none
  | some name => exact fieldIn_leaf rfl

/-! ## Through links -/

section Linked

variable {enclosing : Option Json} {fields : Fields}

theorem spans_linked {first last : Int} :
    Spans first last (linked enclosing fields) ↔ Spans first last fields :=
  and_congr (lookup_linked_int (by decide)) (lookup_linked_int (by decide))

theorem IsToken.link (h : IsToken fields) : IsToken (linked enclosing fields) := by
  obtain ⟨⟨kind, hkind, htag⟩, hspans⟩ := h
  exact ⟨⟨kind, hkind, (lookup_linked_int (by decide)).mpr htag⟩, spans_linked.mpr hspans⟩

theorem Within.link {first last : Int} (h : Within first last fields) :
    Within first last (linked enclosing fields) := by
  obtain ⟨m, n, hspans, hinside⟩ := h
  exact ⟨m, n, spans_linked.mpr hspans, hinside⟩

theorem outermost_linkUnder (enclosing : Option Json) (v : Json) :
    (linkUnder enclosing v).outermost = v.outermost.map (linked enclosing) := by
  induction v using Json.induct with
  | arr vs ih =>
    rw [linkUnder, Json.outermost, Json.outermost]
    induction vs with
    | nil => rfl
    | cons v rest ihrest =>
      rw [Node.linkItems, Json.outermostAmong, Json.outermostAmong, List.map_append,
        ih v (List.mem_cons_self ..), ihrest fun u hu => ih u (List.mem_cons_of_mem _ hu)]
  | obj fields =>
    rw [linkUnder_obj]
    rfl
  | _ => rfl

/-- The integers of a node are there before it is linked. -/
theorem field_of_linkUnder {key : String} (hkey : key ≠ "parent") {v : Json} {n : Int}
    (h : (linkUnder enclosing v).field key = .int n) : v.field key = .int n := by
  cases v with
  | obj fields =>
    rw [linkUnder_obj] at h
    exact (lookup_linked_int hkey).mp h
  | _ => cases h

theorem Holds.link {first last : Int} {v : Json} (h : Holds first last v) :
    Holds first last (linkUnder enclosing v) := by
  refine ⟨fun o ho => ?_, fun ws hws => ?_⟩
  · rw [outermost_linkUnder] at ho
    obtain ⟨inner, hinner, rfl⟩ := List.mem_map.mp ho
    exact (h.inside inner hinner).imp IsToken.link Within.link
  · cases v with
    | arr vs =>
      rw [linkUnder, Node.linkItems_eq_map] at hws
      rw [← Json.arr.inj hws, List.pairwise_map]
      refine (h.ordered vs rfl).imp fun hbefore m n hm hn => ?_
      exact hbefore m n (field_of_linkUnder (by decide) hm) (field_of_linkUnder (by decide) hn)
    | _ => cases hws

/-- **A link changes nothing about what lies where.** -/
theorem Nested.link (around : Option Fields) (hfree : Linkless fields) (h : Nested fields) :
    Nested (linked (around.map .obj) fields) := by
  obtain ⟨first, last, hspans, hle, hholds⟩ := h
  refine ⟨first, last, spans_linked.mpr hspans, hle, fun f hf hkey => ?_⟩
  rcases mem_linked hfree hf with ⟨hparent, -⟩ | ⟨g, hg, rfl⟩
  · exact absurd hparent hkey
  · exact (hholds g hg hkey).link

end Linked

/-! ## The tree of a file -/

/-- **A built tree nests like the source.** If no node of the concrete tree ends before it starts,
and the children of each lie inside it, one after the other, then either a text in the source cannot
be decoded, or the file has a tree in which every object, at any depth, does not end before it
starts. Whatever an object directly encloses lies inside it, but for modifiers and question marks,
which have no place, and the nodes of a list come one after the other and do not overlap. Links to
parents are left aside, since through them an object holds what encloses it. -/
theorem build_nested (source : Source) (fileName : Option String) (tree : SourceTree)
    (h : EachNode Ranged tree) :
    (build source fileName tree).result = .error .notUtf8 ∨
      ∃ fields, (build source fileName tree).result = .ok (.obj fields) ∧
        Within tree.head.start tree.head.stop fields ∧ (Json.obj fields).EachObject Nested := by
  have hfile := fileNode_in source fileName h
  refine (build_each source fileName tree (fun around _ => Nested.link around)
    (hfile.mono fun _ hnode => hnode.2)).imp_right ?_
  rintro ⟨fields, hnode, hbuild, hall⟩
  obtain ⟨⟨_, ⟨⟩, hwithin⟩, -⟩ := hfile _ hnode
  exact ⟨_, hbuild, hwithin.link, hall⟩

/-- A module with a dotted name inside an export and an ambient declaration, with a nested union. -/
theorem build_nested_wrapped :
    let source : Source := .ofText "export declare namespace A.B { let x: S | T | U; }"
    let node (type : String) (field : Option String) (start stop : Nat)
        (children : List SourceTree) : SourceTree :=
      .node ⟨type, true, field, start, stop⟩ () children
    let word (type : String) (start stop : Nat) : SourceTree :=
      .node ⟨type, false, none, start, stop⟩ () []
    let name (start : Nat) : SourceTree := node "type_identifier" none start (start + 1) []
    let union := node "union_type" none 38 47
      [node "union_type" none 38 43 [name 38, word "|" 40 41, name 42], word "|" 44 45, name 46]
    let declarator := node "variable_declarator" none 35 47
      [node "identifier" (some "name") 35 36 [],
        node "type_annotation" (some "type") 36 47 [word ":" 36 37, union]]
    let body := node "statement_block" (some "body") 29 50 [word "\x7b" 29 30,
      node "lexical_declaration" none 31 48 [word "let" 31 34, declarator, word ";" 47 48],
      word "\x7d" 49 50]
    let module := node "internal_module" none 15 50
      [word "namespace" 15 24, node "nested_identifier" (some "name") 25 28 [], body]
    let tree := node "program" none 0 50 [node "export_statement" none 0 50 [word "export" 0 6,
      node "ambient_declaration" (some "declaration") 7 50 [word "declare" 7 14, module]]]
    EachNode Ranged tree ∧ ∃ fields, (build source none tree).result = .ok (.obj fields) ∧
      Within 0 50 fields ∧ (Json.obj fields).EachObject Nested := by
  intro source node word name union declarator body module tree
  have hranged : EachNode Ranged tree := by decide
  have hok : (build source none tree).result.isOk = true := by decide +kernel
  refine ⟨hranged, (build_nested source none tree hranged).resolve_left fun herror => ?_⟩
  rw [herror] at hok
  cases hok

end DeclCatalogue.Tree
