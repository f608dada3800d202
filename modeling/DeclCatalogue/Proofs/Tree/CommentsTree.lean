import DeclCatalogue.Proofs.Tree.Comments
import DeclCatalogue.Proofs.Tree.ConformingTree

/-!
# Statements without comments

Declarations and statements, each with the comments of a tree and without them, and at the end the
tree as a whole: in a tree in which no comment comes first where the first child counts, every node
is read alike (`readAlike_readTree`).
-/

namespace DeclCatalogue.Tree

open Cst (kept EachNode ledByComment)

variable {source : Source} {head : CstHead} {cs : List SourceTree}
  {inherited : List ModifierKind}

/-! ## Blocks and declarations -/

theorem statementsAmong_agree (h : AllReadAlike source cs) :
    Agree AllSimilar (statementsAmong (cs.map (readTree source))).result
      (statementsAmong ((kept cs).map (readPlain source))).result := by
  unfold statementsAmong
  simp only [Built.result_bind, Built.result_forEach, Built.result_pure]
  rw [named_readTree, named_readPlain]
  refine (agree_groups (fun c _ hloose => (readTree_comment hloose).2.2.2 []) fun c hc => ?_).bind
    fun _ _ hgroups => .ok hgroups
  exact (h.named c hc).self.statement []

/-- Bodies that are missing or similar. -/
def SameBody (a b : Option Json) : Prop :=
  Node.Similar (a.getD .null) (b.getD .null)

theorem block_agree (kind : SyntaxKind) {c : Option SourceTree}
    (h : ∀ d, c = some d → EachNode (ReadAlike source) d) :
    Agree SameBody (block kind (c.map (readTree source))).result
      (block kind (c.map (readPlain source))).result := by
  cases c with
  | none => exact .ok .null
  | some c =>
    unfold block
    dsimp only [Option.map_some]
    rw [children_readTree, children_readPlain, head_readTree, head_readPlain]
    simp only [Built.result_bind, Built.result_pure]
    refine (statementsAmong_agree (allReadAlike_children (h c rfl))).bind fun us vs huv => .ok ?_
    exact similar_make ⟨⟨rfl, .inr ⟨us, vs, rfl, rfl, huv⟩⟩, trivial⟩ (by simp)

theorem functionDeclaration_agree (h : AllReadAlike source cs) :
    Agree Node.Similar (functionDeclaration source head (cs.map (readTree source)) inherited).result
      (functionDeclaration source head ((kept cs).map (readPlain source)) inherited).result := by
  unfold functionDeclaration
  simp only [Built.result_bind, Built.result_lift, Built.result_pure]
  rw [modifiers_readTree, modifiers_readPlain]
  simp only [childAt?_readTree, childAt?_readPlain]
  rw [identifierOf?_map source head_readTree, identifierOf?_map source head_readPlain]
  refine (agree_refl _).bind fun modifiers _ heq => ?_
  subst heq
  refine (agree_refl _).bind fun name _ heq => ?_
  subst heq
  refine (typeParameters_agree h).bind fun _ _ _ => ?_
  refine (parameters_agree (h.childAt "parameters")).bind fun _ _ _ => ?_
  refine (typeOf_agree (h.childAt "return_type")).bind fun _ _ htype => ?_
  refine (block_agree .block (h.childAt "body")).bind fun _ _ hbody => .ok ?_
  exact similar_make ⟨⟨rfl, rfl⟩, ⟨rfl, rfl⟩, ⟨rfl, trivial⟩, ⟨rfl, trivial⟩, ⟨rfl, htype⟩,
    ⟨rfl, hbody⟩, trivial⟩ (by simp)

theorem classMember_agree {c : SourceTree} (h : EachNode (ReadAlike source) c) :
    SucceedAlike (classMember source (readTree source c)).result
      (classMember source (readPlain source c)).result := by
  have hbelow := allReadAlike_children h
  have hfull : (readTree source c).type = c.type := congrArg CstHead.type (head_readTree c)
  have hplain : (readPlain source c).type = c.type := congrArg CstHead.type (head_readPlain c)
  unfold classMember
  rw [hfull, hplain, children_readTree, children_readPlain]
  split
  · exact .ok trivial
  · simp only [Built.result_bind, Built.result_lift, Built.result_pure]
    rw [modifiers_readTree, modifiers_readPlain]
    simp only [childAt?_readTree, childAt?_readPlain]
    rw [textOf?_map source head_readTree, textOf?_map source head_readPlain,
      propertyName_map source head_readTree, propertyName_map source head_readPlain]
    refine (agree_refl _).bind fun text _ heq => ?_
    subst heq
    refine (agree_refl _).bind fun _ _ _ => ?_
    refine (agree_refl _).bind fun _ _ _ => ?_
    refine (typeParameters_agree hbelow).bind fun _ _ _ => ?_
    refine (parameters_agree (hbelow.childAt "parameters")).bind fun _ _ _ => ?_
    refine (typeOf_agree (hbelow.childAt "return_type")).bind fun _ _ _ => ?_
    exact (block_agree .block (hbelow.childAt "body")).bind fun _ _ _ => .ok trivial
  · simp only [Built.result_bind, Built.result_lift, Built.result_pure]
    rw [modifiers_readTree, modifiers_readPlain]
    simp only [childAt?_readTree, childAt?_readPlain]
    rw [propertyName_map source head_readTree, propertyName_map source head_readPlain]
    refine (agree_refl _).bind fun _ _ _ => ?_
    refine (agree_refl _).bind fun _ _ _ => ?_
    refine (typeOf_agree (hbelow.childAt "type")).bind fun _ _ _ => ?_
    exact (expressionOf_agree (hbelow.childAt "value")).bind fun _ _ _ => .ok trivial
  · exact .ok trivial

theorem classMember_comment {c : SourceTree} (h : c.isLooseComment = true) :
    (classMember source (readTree source c)).result = .ok [] := by
  have htype : (readTree source c).type = "comment" :=
    (congrArg CstHead.type (head_readTree c)).trans (Cst.type_of_isLooseComment h)
  unfold classMember
  rw [htype]
  rfl

/-- The members of a class, whose body may be missing. -/
theorem classMembers_agree {body : Option SourceTree}
    (h : ∀ d, body = some d → EachNode (ReadAlike source) d) :
    SucceedAlike
      (decodeEach (fun c => (classMember source c).result)
        (Cst.named (Cst.childrenOf (body.map (readTree source)))))
      (decodeEach (fun c => (classMember source c).result)
        (Cst.named (Cst.childrenOf (body.map (readPlain source))))) := by
  cases body with
  | none => exact .ok trivial
  | some body =>
    have hbelow := allReadAlike_children (h body rfl)
    dsimp only [Option.map_some, Cst.childrenOf]
    rw [children_readTree, children_readPlain, named_readTree, named_readPlain]
    refine succeed_decodeEach (fun c _ hloose => ⟨_, classMember_comment hloose⟩) fun c hc => ?_
    exact classMember_agree (hbelow.named c hc)

theorem classDeclaration_agree (h : AllReadAlike source cs) :
    Agree Node.Similar (classDeclaration source head (cs.map (readTree source)) inherited).result
      (classDeclaration source head ((kept cs).map (readPlain source)) inherited).result := by
  unfold classDeclaration
  simp only [Built.result_bind, Built.result_lift, Built.result_pure, Built.result_forEach]
  rw [modifiers_readTree, modifiers_readPlain]
  simp only [childAt?_readTree, childAt?_readPlain]
  rw [identifierOf?_map source head_readTree, identifierOf?_map source head_readPlain]
  refine (agree_refl _).bind fun modifiers _ heq => ?_
  subst heq
  refine (agree_refl _).bind fun name _ heq => ?_
  subst heq
  refine (typeParameters_agree h).bind fun _ _ _ => ?_
  refine (classMembers_agree (h.childAt "body")).bind fun _ _ _ => .ok ?_
  exact similar_make ⟨⟨rfl, rfl⟩, ⟨rfl, rfl⟩, ⟨rfl, trivial⟩, ⟨rfl, trivial⟩, trivial⟩ (by simp)

/-- The members of an interface, whose body may be missing. -/
theorem membersOf_agree {body : Option SourceTree}
    (h : ∀ d, body = some d → EachNode (ReadAlike source) d) :
    SucceedAlike (typeMembers source (Cst.childrenOf (body.map (readTree source))))
      (typeMembers source (Cst.childrenOf (body.map (readPlain source)))) := by
  cases body with
  | none => exact .ok trivial
  | some body =>
    dsimp only [Option.map_some, Cst.childrenOf]
    rw [children_readTree, children_readPlain]
    exact typeMembers_agree (allReadAlike_children (h body rfl))

theorem interfaceDeclaration_agree (h : AllReadAlike source cs) :
    Agree Node.Similar (interfaceDeclaration source head (cs.map (readTree source)) inherited)
      (interfaceDeclaration source head ((kept cs).map (readPlain source)) inherited) := by
  have hbody : ∀ d, (Cst.childAt? "body" cs
      <|> Cst.childOfType? ["interface_body", "object_type"] cs) = some d →
      EachNode (ReadAlike source) d := by
    intro d hd
    cases hat : Cst.childAt? "body" cs with
    | none => rw [hat] at hd; exact h.childOfType _ d hd
    | some c => rw [hat] at hd; exact h.childAt _ d (hat.trans hd)
  unfold interfaceDeclaration
  rw [modifiers_readTree, modifiers_readPlain]
  simp only [childAt?_readTree, childAt?_readPlain, childOfType?_readTree]
  rw [childOfType?_readPlain source cs (by decide), orElse_map, orElse_map,
    identifierOf?_map source head_readTree, identifierOf?_map source head_readPlain]
  refine (agree_refl _).bind fun modifiers _ heq => ?_
  subst heq
  refine (agree_refl _).bind fun name _ heq => ?_
  subst heq
  refine (typeParameters_agree h).bind fun _ _ _ => ?_
  refine (membersOf_agree hbody).bind fun _ _ _ => .ok ?_
  exact similar_make ⟨⟨rfl, rfl⟩, ⟨rfl, rfl⟩, ⟨rfl, trivial⟩, ⟨rfl, trivial⟩, trivial⟩ (by simp)

theorem typeAliasDeclaration_agree (h : AllReadAlike source cs) :
    Agree Node.Similar (typeAliasDeclaration source head (cs.map (readTree source)) inherited)
      (typeAliasDeclaration source head ((kept cs).map (readPlain source)) inherited) := by
  unfold typeAliasDeclaration
  rw [modifiers_readTree, modifiers_readPlain]
  simp only [childAt?_readTree, childAt?_readPlain]
  rw [identifierOf?_map source head_readTree, identifierOf?_map source head_readPlain]
  refine (agree_refl _).bind fun modifiers _ heq => ?_
  subst heq
  refine (agree_refl _).bind fun name _ heq => ?_
  subst heq
  refine (typeParameters_agree h).bind fun _ _ _ => ?_
  refine (typeOf_agree (h.childAt "value")).bind fun _ _ htype => .ok ?_
  exact similar_make ⟨⟨rfl, rfl⟩, ⟨rfl, rfl⟩, ⟨rfl, trivial⟩, ⟨rfl, htype⟩, trivial⟩ (by simp)

theorem enumDeclaration_agree :
    Agree Node.Similar (enumDeclaration source head (cs.map (readTree source)) inherited)
      (enumDeclaration source head ((kept cs).map (readPlain source)) inherited) := by
  unfold enumDeclaration
  rw [modifiers_readTree, modifiers_readPlain, childAt?_readTree, childAt?_readPlain,
    identifierOf?_map source head_readTree, identifierOf?_map source head_readPlain]
  refine (agree_refl _).bind fun modifiers _ heq => ?_
  subst heq
  refine (agree_refl _).bind fun name _ heq => ?_
  subst heq
  exact .ok (similar_make ⟨⟨rfl, rfl⟩, ⟨rfl, rfl⟩, trivial⟩ (by simp))

/-! ## Variables -/

/-- A variable shows its name and its type. -/
theorem variableView_make (name type initializer : Option Json) :
    VariableView.of (make .variableDeclaration head
      [("name", name), ("type", type), ("initializer", initializer)]) =
      ⟨Node.ownName? (name.getD .null), TypeView.of (type.getD .null)⟩ := by
  have hname : (make .variableDeclaration head
      [("name", name), ("type", type), ("initializer", initializer)]).field "name" =
        name.getD .null := by
    show Json.lookup "name" (present _) = _
    exact lookup_present_of_mem (by simp) (by simp)
  have htype : (make .variableDeclaration head
      [("name", name), ("type", type), ("initializer", initializer)]).field "type" =
        type.getD .null := by
    show Json.lookup "type" (present _) = _
    exact lookup_present_of_mem (by simp) (by simp)
  unfold VariableView.of
  rw [hname, htype]

theorem variableDeclaration_agree {c : SourceTree} (h : EachNode (ReadAlike source) c) :
    Agree (fun u v => VariableView.of u = VariableView.of v)
      (variableDeclaration (readTree source c)) (variableDeclaration (readPlain source c)) := by
  have hbelow := allReadAlike_children h
  unfold variableDeclaration
  rw [children_readTree, children_readPlain, head_readTree, head_readPlain]
  simp only [childAt?_readTree, childAt?_readPlain]
  refine (bindingOf_agree (hbelow.childAt "name")).bind fun name _ hname => ?_
  refine (typeOf_agree (hbelow.childAt "type")).bind fun type _ htype => ?_
  refine (expressionOf_agree (hbelow.childAt "value")).bind fun _ _ _ => .ok ?_
  rw [variableView_make, variableView_make]
  unfold Node.ownName? TypeView.of
  rw [hname, htype]

theorem variableStatement_agree (h : AllReadAlike source cs) :
    Agree Node.Similar (variableStatement head (cs.map (readTree source)) inherited)
      (variableStatement head ((kept cs).map (readPlain source)) inherited) := by
  unfold variableStatement
  rw [named_readTree, named_readPlain,
    filter_readTree source _ fun t => decide (t = "variable_declarator"),
    filter_readPlain source _ (p := fun t => decide (t = "variable_declarator")) rfl]
  refine (agree_decodeEach (S := fun u v => VariableView.of u = VariableView.of v) ?_).bind
    fun us vs huv => .ok ?_
  · rw [List.forall₂_map_left_iff, List.forall₂_map_right_iff, List.forall₂_same]
    exact fun c hc => variableDeclaration_agree (h.named.filter _ c hc)
  · refine similar_make ⟨⟨rfl, rfl⟩, ⟨rfl, ?_⟩, trivial⟩ (by simp)
    show us.map VariableView.of = vs.map VariableView.of
    induction huv with
    | nil => rfl
    | cons huv _ ih => rw [List.map_cons, List.map_cons, huv, ih]

/-! ## Imports -/

theorem importSpecifier_eq (c : SourceTree) :
    importSpecifier source (readTree source c) = importSpecifier source (readPlain source c) := by
  unfold importSpecifier
  rw [children_readTree, children_readPlain, head_readTree, head_readPlain]
  simp only [childAt?_readTree, childAt?_readPlain]
  rw [identifierOf?_map source head_readTree, identifierOf?_map source head_readPlain]
  cases Cst.childAt? "alias" c.children with
  | none => rfl
  | some aliasNode =>
    dsimp only [Option.map_some]
    rw [head_readTree, head_readPlain]

/-- What is read of each child of certain types, if it is the same of every one. -/
theorem decodeEach_types_eq {α : Type} {f : ReadNode → Decoded α} {p : String → Bool}
    (hp : p "comment" = false) (h : ∀ c, f (readTree source c) = f (readPlain source c)) :
    decodeEach f ((Cst.named (cs.map (readTree source))).filter fun c => p c.type) =
      decodeEach f ((Cst.named ((kept cs).map (readPlain source))).filter fun c => p c.type) := by
  rw [named_readTree, named_readPlain, filter_readTree, filter_readPlain source _ hp]
  induction (Cst.named cs).filter fun c => p c.type with
  | nil => rfl
  | cons c rest ih => rw [List.map_cons, List.map_cons, decodeEach, decodeEach, h, ih]

theorem importPart_eq (found : Option Json × Option Json) (c : SourceTree) :
    importPart source found (readTree source c) = importPart source found (readPlain source c) := by
  have hfull : (readTree source c).type = c.type := congrArg CstHead.type (head_readTree c)
  have hplain : (readPlain source c).type = c.type := congrArg CstHead.type (head_readPlain c)
  unfold importPart
  rw [hfull, hplain, head_readTree, head_readPlain, children_readTree, children_readPlain]
  dsimp only
  rw [decodeEach_types_eq (p := fun t => decide (t = "import_specifier")) rfl importSpecifier_eq,
    named_readTree, named_readPlain, childOfType?_readTree,
    childOfType?_readPlain source _ (by decide),
    identifierOf?_map source head_readTree, identifierOf?_map source head_readPlain]

theorem importParts_eq (found : Option Json × Option Json) (cs : List SourceTree) :
    importParts source found (cs.map (readTree source)) =
      importParts source found ((kept cs).map (readPlain source)) := by
  induction cs generalizing found with
  | nil => rfl
  | cons c rest ih =>
    rw [Cst.kept_cons, List.map_cons, importParts]
    split
    next hloose =>
      have hfound : importPart source found (readTree source c) = .ok found := by
        have htype : (readTree source c).type = "comment" :=
          (congrArg CstHead.type (head_readTree c)).trans (Cst.type_of_isLooseComment hloose)
        unfold importPart
        rw [htype]
        rfl
      rw [hfound]
      exact ih found
    next =>
      rw [List.map_cons, importParts, importPart_eq]
      simp only [ih]

theorem importClause_eq (typeOnly : Bool) (clause : Option SourceTree) :
    importClause source typeOnly (clause.map (readTree source)) =
      importClause source typeOnly (clause.map (readPlain source)) := by
  cases clause with
  | none => rfl
  | some clause =>
    unfold importClause
    dsimp only [Option.map_some]
    rw [children_readTree, children_readPlain, named_readTree, named_readPlain, importParts_eq,
      head_readTree, head_readPlain]

theorem importDeclaration_eq (cs : List SourceTree) :
    importDeclaration source head (cs.map (readTree source)) =
      importDeclaration source head ((kept cs).map (readPlain source)) := by
  have htype : (cs.map (readTree source)).any (fun c => c.type = "type") =
      ((kept cs).map (readPlain source)).any fun c => c.type = "type" := by
    rw [Cst.any_type_map head_readTree fun t => decide (t = "type"),
      Cst.any_type_map head_readPlain fun t => decide (t = "type"), Cst.any_kept]
    intro c hc
    rw [Cst.type_of_isLooseComment hc]
    rfl
  unfold importDeclaration
  rw [htype]
  simp only [childAt?_readTree, childAt?_readPlain, childOfType?_readTree]
  rw [childOfType?_readPlain source cs (by decide), childOfType?_readPlain source cs (by decide),
    orElse_map, orElse_map, importClause_eq]
  cases (Cst.childAt? "source" cs <|> Cst.childOfType? ["string"] cs) with
  | none => rfl
  | some specifier =>
    dsimp only [Option.map_some]
    rw [head_readTree, head_readPlain]

/-! ## Exports -/

theorem contains_tokens_eq {keyword : String} (hkeyword : keyword ≠ "comment")
    (cs : List SourceTree) :
    (Cst.tokens (cs.map (readTree source))).contains keyword =
      (Cst.tokens ((kept cs).map (readPlain source))).contains keyword := by
  rw [Cst.tokens_map head_readTree, Cst.tokens_map head_readPlain,
    Cst.contains_tokens_kept hkeyword]

theorem exportModifiers_eq (cs : List SourceTree) :
    exportModifiers inherited (cs.map (readTree source)) =
      exportModifiers inherited ((kept cs).map (readPlain source)) := by
  unfold exportModifiers
  rw [contains_tokens_eq (by decide)]

/-- The children that are no comments, whatever holds them. -/
theorem withoutComments_readTree (cs : List SourceTree) :
    Cst.withoutComments (Cst.named (cs.map (readTree source))) =
      (Cst.withoutComments (Cst.named cs)).map (readTree source) := by
  rw [named_readTree, Cst.withoutComments_map head_readTree]

theorem withoutComments_readPlain (cs : List SourceTree) :
    Cst.withoutComments (Cst.named ((kept cs).map (readPlain source))) =
      (Cst.withoutComments (Cst.named cs)).map (readPlain source) := by
  rw [named_readPlain, Cst.withoutComments_map head_readPlain, Cst.withoutComments_kept]

/-- The exported value is the same node in both readings. -/
theorem exportedValue_cases (source : Source) (cs : List SourceTree) :
    ∃ c : Option SourceTree, (∀ d, c = some d → d ∈ cs) ∧
      exportedValue? (cs.map (readTree source)) = c.map (readTree source) ∧
      exportedValue? ((kept cs).map (readPlain source)) = c.map (readPlain source) := by
  refine ⟨Cst.childAt? "value" cs <|> if (Cst.tokens cs).contains "=" then
    (Cst.withoutComments (Cst.named cs)).head? else none, fun d hd => ?_, ?_, ?_⟩
  · cases hat : Cst.childAt? "value" cs with
    | some c => rw [hat] at hd; exact Cst.childAt?_mem (hat.trans hd)
    | none =>
      rw [hat] at hd
      have hd : (if (Cst.tokens cs).contains "=" then
          (Cst.withoutComments (Cst.named cs)).head? else none) = some d := hd
      split at hd
      · exact Cst.mem_of_mem_named (List.mem_filter.mp (List.mem_of_head? hd)).1
      · cases hd
  · unfold exportedValue?
    rw [childAt?_readTree, Cst.tokens_map head_readTree, withoutComments_readTree, List.head?_map,
      ← orElse_map]
    split <;> rfl
  · unfold exportedValue?
    rw [childAt?_readPlain, ← contains_tokens_eq (by decide), Cst.tokens_map head_readTree,
      withoutComments_readPlain, List.head?_map, ← orElse_map]
    split <;> rfl

theorem exportValue_agree {modifiers : List ModifierKind} {value : SourceTree}
    (h : EachNode (ReadAlike source) value) :
    Agree Node.Similar
      (exportValue source head (cs.map (readTree source)) modifiers (readTree source value)).result
      (exportValue source head ((kept cs).map (readPlain source)) modifiers
        (readPlain source value)).result := by
  have hbelow := allReadAlike_children h
  have hfull : (readTree source value).type = value.type :=
    congrArg CstHead.type (head_readTree value)
  have hplain : (readPlain source value).type = value.type :=
    congrArg CstHead.type (head_readPlain value)
  unfold exportValue
  dsimp only
  rw [hfull, hplain, head_readTree, head_readPlain, children_readTree, children_readPlain,
    childAt?_readTree, childAt?_readPlain, Option.isSome_map, Option.isSome_map,
    contains_tokens_eq (by decide)]
  split
  · exact classDeclaration_agree hbelow
  split
  · exact functionDeclaration_agree hbelow
  · simp only [Built.result_bind, Built.result_lift, Built.result_pure]
    refine h.self.expression.bind fun _ _ hexpression => .ok ?_
    exact similar_make ⟨⟨rfl, trivial⟩, ⟨rfl, hexpression⟩, trivial⟩ (by simp)

theorem exportSpecifier_eq (c : SourceTree) :
    exportSpecifier source (readTree source c) = exportSpecifier source (readPlain source c) := by
  unfold exportSpecifier
  rw [children_readTree, children_readPlain, head_readTree, head_readPlain]
  simp only [childAt?_readTree, childAt?_readPlain, Option.isSome_map]
  rw [orElse_map, orElse_map]
  simp only [identifierOf?_map source head_readTree, identifierOf?_map source head_readPlain]

theorem exportClause_eq (clause : Option SourceTree) :
    exportClause source (clause.map (readTree source)) =
      exportClause source (clause.map (readPlain source)) := by
  cases clause with
  | none => rfl
  | some clause =>
    unfold exportClause
    dsimp only [Option.map_some]
    rw [children_readTree, children_readPlain, head_readTree, head_readPlain,
      decodeEach_types_eq (p := fun t => decide (t = "export_specifier")) rfl exportSpecifier_eq]

theorem exportDeclaration_eq (cs : List SourceTree) :
    exportDeclaration source head (cs.map (readTree source)) =
      exportDeclaration source head ((kept cs).map (readPlain source)) := by
  unfold exportDeclaration
  dsimp only
  rw [childAt?_readTree, childAt?_readPlain, childOfType?_readTree,
    childOfType?_readPlain source cs (by decide), orElse_map, orElse_map, named_readTree,
    named_readPlain, childOfType?_readTree, childOfType?_readPlain source _ (by decide),
    exportClause_eq]
  cases (Cst.childAt? "source" cs <|> Cst.childOfType? ["string"] cs) with
  | none => rfl
  | some specifier =>
    dsimp only [Option.map_some]
    refine bind_congr fun clause => ?_
    cases clause <;> simp only [head_readTree, head_readPlain]

theorem exportStatement_agree (h : AllReadAlike source cs) :
    Agree AllSimilar (exportStatement source head (cs.map (readTree source)) inherited).result
      (exportStatement source head ((kept cs).map (readPlain source)) inherited).result := by
  obtain ⟨value, hvalue, hfull, hplain⟩ := exportedValue_cases source cs
  unfold exportStatement
  dsimp only
  rw [childAt?_readTree, childAt?_readPlain, exportModifiers_eq, hfull, hplain,
    exportDeclaration_eq]
  cases hdeclaration : Cst.childAt? "declaration" cs with
  | some declaration => exact (h.childAt _ declaration hdeclaration).self.statement _
  | none =>
    cases value with
    | some value =>
      dsimp only [Option.map_none, Option.map_some]
      simp only [Built.result_bind, Built.result_pure]
      exact (exportValue_agree (h value (hvalue value rfl))).bind fun _ _ hnode =>
        .ok (.cons hnode .nil)
    | none =>
      dsimp only [Option.map_none]
      simp only [Built.result_bind, Built.result_lift, Built.result_pure]
      exact (agree_similar exportDeclaration_ok).bind fun _ _ hnode => .ok (.cons hnode .nil)

/-! ## Modules -/

/-- The modules of the inner segments around bodies that are similar. -/
theorem innerModules_similar (head nameHead : CstHead) (flags : Nat) (names : List String)
    {a b : Option Json} (h : SameBody a b) :
    SameBody (innerModules head nameHead flags names a)
      (innerModules head nameHead flags names b) := by
  unfold innerModules
  induction names with
  | nil => exact h
  | cons segment rest ih =>
    rw [List.foldr_cons, List.foldr_cons]
    exact similar_flagged ⟨⟨rfl, rfl⟩, ⟨rfl, ih⟩, trivial⟩ (by simp)

/-- A module with modifiers, a name and similar bodies. -/
theorem module_similar {flags : Nat} (modifiers name : Option Json) {a b : Option Json}
    (h : SameBody a b) :
    Node.Similar
      (flagged .moduleDeclaration head flags
        [("modifiers", modifiers), ("name", name), ("body", a)])
      (flagged .moduleDeclaration head flags
        [("modifiers", modifiers), ("name", name), ("body", b)]) :=
  similar_flagged ⟨⟨rfl, rfl⟩, ⟨rfl, rfl⟩, ⟨rfl, h⟩, trivial⟩ (by simp)

theorem moduleDeclaration_agree (h : AllReadAlike source cs) :
    Agree Node.Similar (moduleDeclaration source head (cs.map (readTree source)) inherited).result
      (moduleDeclaration source head ((kept cs).map (readPlain source)) inherited).result := by
  unfold moduleDeclaration
  dsimp only
  rw [Built.result_bind, Built.result_bind]
  simp only [childAt?_readTree, childAt?_readPlain]
  refine (block_agree .moduleBlock (h.childAt "body")).bind fun _ _ hbody => ?_
  cases Cst.childAt? "name" cs with
  | none => exact .ok (similar_make trivial List.nodup_nil)
  | some nameNode =>
    have hfull : (readTree source nameNode).type = nameNode.type :=
      congrArg CstHead.type (head_readTree nameNode)
    have hplain : (readPlain source nameNode).type = nameNode.type :=
      congrArg CstHead.type (head_readPlain nameNode)
    dsimp only [Option.map_some]
    rw [hfull, hplain, head_readTree, head_readPlain, modifiers_readTree, modifiers_readPlain]
    split
    · simp only [Built.result_bind, Built.result_lift, Built.result_pure]
      refine (agree_refl _).bind fun name _ heq => ?_
      subst heq
      refine (agree_refl _).bind fun modifiers _ heq => ?_
      subst heq
      exact .ok (module_similar modifiers (some name) hbody)
    · simp only [Built.result_bind, Built.result_lift]
      refine (agree_refl _).bind fun text _ heq => ?_
      subst heq
      split
      · exact .ok (similar_make trivial List.nodup_nil)
      next first rest _ =>
        simp only [Built.result_bind, Built.result_lift, Built.result_pure]
        refine (agree_refl _).bind fun modifiers _ heq => ?_
        subst heq
        exact .ok (module_similar modifiers _
          (innerModules_similar head nameNode.head _ rest hbody))

/-- Statements of the children that are no comments. -/
theorem statementsOf_agree (inherited : List ModifierKind) (h : AllReadAlike source cs) :
    Agree (List.Forall₂ AllSimilar)
      (decodeEach (fun (c : ReadNode) => (c.note.statement inherited).result)
        (cs.map (readTree source)))
      (decodeEach (fun (c : ReadNode) => (c.note.statement inherited).result)
        (cs.map (readPlain source))) := by
  refine agree_decodeEach ?_
  rw [List.forall₂_map_left_iff, List.forall₂_map_right_iff, List.forall₂_same]
  exact fun c hc => (h c hc).self.statement inherited

theorem ambientDeclaration_agree (h : AllReadAlike source cs) :
    Agree AllSimilar (ambientDeclaration head (cs.map (readTree source)) inherited).result
      (ambientDeclaration head ((kept cs).map (readPlain source)) inherited).result := by
  have hglobal : (cs.map (readTree source)).any (fun c => c.type = "global") =
      ((kept cs).map (readPlain source)).any fun c => c.type = "global" := by
    rw [Cst.any_type_map head_readTree fun t => decide (t = "global"),
      Cst.any_type_map head_readPlain fun t => decide (t = "global"), Cst.any_kept]
    intro c hc
    rw [Cst.type_of_isLooseComment hc]
    rfl
  unfold ambientDeclaration
  dsimp only
  rw [hglobal, withoutComments_readTree, withoutComments_readPlain, childOfType?_readTree,
    childOfType?_readPlain source cs (by decide)]
  split
  · simp only [Built.result_bind, Built.result_pure]
    refine (block_agree .moduleBlock (h.childOfType ["statement_block"])).bind fun _ _ hbody => ?_
    exact .ok (.cons (module_similar _ _ hbody) .nil)
  · simp only [Built.result_bind, Built.result_forEach, Built.result_pure]
    refine (statementsOf_agree _ (h.named.filter _)).bind fun _ _ hgroups => .ok ?_
    exact List.rel_flatten hgroups

/-! ## Statements -/

theorem plainExpression_agree (h : AllReadAlike source cs) :
    Agree AllSimilar (expressionStatement.plain head (cs.map (readTree source))).result
      (expressionStatement.plain head (cs.map (readPlain source))).result := by
  unfold expressionStatement.plain
  simp only [Built.result_bind, Built.result_lift, Built.result_pure]
  rw [List.head?_map, List.head?_map]
  refine (expressionOf_agree fun d hd => h d (List.mem_of_head? hd)).bind
    fun _ _ hexpression => .ok (.cons ?_ .nil)
  exact similar_make ⟨⟨rfl, hexpression⟩, trivial⟩ (by simp)

theorem expressionStatement_agree (h : AllReadAlike source cs) :
    Agree AllSimilar (expressionStatement source head (cs.map (readTree source)) inherited).result
      (expressionStatement source head ((kept cs).map (readPlain source)) inherited).result := by
  have hinner : AllReadAlike source (Cst.withoutComments (Cst.named cs)) := h.named.filter _
  unfold expressionStatement
  dsimp only
  rw [withoutComments_readTree, withoutComments_readPlain]
  revert hinner
  generalize Cst.withoutComments (Cst.named cs) = inner
  intro hinner
  match inner, hinner with
  | [], hinner => exact plainExpression_agree hinner
  | [only], hinner =>
    have honly := hinner only (List.mem_cons_self ..)
    have hfull : (readTree source only).type = only.type :=
      congrArg CstHead.type (head_readTree only)
    have hplain : (readPlain source only).type = only.type :=
      congrArg CstHead.type (head_readPlain only)
    rw [List.map_singleton, List.map_singleton]
    dsimp only
    rw [hfull, hplain]
    split
    · simp only [Built.result_bind, Built.result_pure]
      rw [head_readTree, head_readPlain, children_readTree, children_readPlain]
      exact (moduleDeclaration_agree (allReadAlike_children honly)).bind
        fun _ _ hnode => .ok (.cons hnode .nil)
    · exact plainExpression_agree hinner
  | first :: second :: rest, hinner => exact plainExpression_agree hinner

/-- A statement that becomes one node. -/
private theorem agree_singleton {x y : Decoded Json} (h : Agree Node.Similar x y) :
    Agree AllSimilar (do return [← x]) (do return [← y]) :=
  h.bind fun _ _ hnode => .ok (.cons hnode .nil)

theorem statement_agree (h : AllReadAlike source cs) :
    Agree AllSimilar (statement source head (cs.map (readTree source)) inherited).result
      (statement source head ((kept cs).map (readPlain source)) inherited).result := by
  unfold statement
  split
  · -- functions
    simp only [Built.result_bind, Built.result_pure]
    exact agree_singleton (functionDeclaration_agree h)
  · -- classes
    simp only [Built.result_bind, Built.result_pure]
    exact agree_singleton (classDeclaration_agree h)
  · -- interfaces
    simp only [Built.result_bind, Built.result_lift, Built.result_pure]
    exact agree_singleton (interfaceDeclaration_agree h)
  · -- type aliases
    simp only [Built.result_bind, Built.result_lift, Built.result_pure]
    exact agree_singleton (typeAliasDeclaration_agree h)
  · -- enumerations
    simp only [Built.result_bind, Built.result_lift, Built.result_pure]
    exact agree_singleton enumDeclaration_agree
  · -- variables
    simp only [Built.result_bind, Built.result_lift, Built.result_pure]
    exact agree_singleton (variableStatement_agree h)
  · -- imports
    simp only [Built.result_bind, Built.result_lift, Built.result_pure]
    rw [importDeclaration_eq]
    exact agree_singleton (agree_similar importDeclaration_ok)
  · -- exports
    exact exportStatement_agree h
  · -- ambient declarations
    exact ambientDeclaration_agree h
  · -- modules
    simp only [Built.result_bind, Built.result_pure]
    exact agree_singleton (moduleDeclaration_agree h)
  · -- expressions
    exact expressionStatement_agree h
  · -- comments become nothing
    exact .ok .nil
  · -- statements that are kept by their kind
    exact .ok (.cons (similar_make trivial List.nodup_nil) .nil)
  · -- statements of no known type
    exact .ok (.cons (similar_make trivial List.nodup_nil) .nil)

/-! ## The whole tree -/

/-- **Comments make no difference to how a tree is read,** if none comes first where the first child
counts. -/
theorem readAlike_readTree (source : Source) (tree : SourceTree) :
    EachNode (fun c => ledByComment c = false) tree → EachNode (ReadAlike source) tree := by
  induction tree using Cst.induct with
  | node head note cs ih =>
    intro hled
    have hself := hled.self
    have hcs : AllReadAlike source cs := fun c hc => ih c hc (hled.child hc)
    refine Cst.eachNode_node.mpr ⟨?_, hcs⟩
    constructor
    · rw [note_readTree, note_readPlain]
      exact expression_agree hcs hself
    · rw [note_readTree, note_readPlain]
      exact binding_agree hcs hself
    · rw [note_readTree, note_readPlain]
      exact typeNode_agree hcs hself
    · intro inherited
      rw [note_readTree, note_readPlain]
      exact statement_agree hcs

end DeclCatalogue.Tree
