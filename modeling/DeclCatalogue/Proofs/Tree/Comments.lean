import DeclCatalogue.Proofs.Tree.ReadAlike

/-!
# Names, types and members without comments

How expressions, bindings, types, parameters and members are read with the comments of a tree and
without them, each part from the readings of the nodes below it. Only for names is more said than
that both readings succeed, or both fail.
-/

namespace DeclCatalogue.Tree

open Cst (kept EachNode ledByComment)
open Json (lookup)

variable {source : Source} {head : CstHead} {cs : List SourceTree}

/-! ## Nodes that may be missing -/

section Missing

variable {c : Option SourceTree}

theorem typeOf_agree (h : ∀ d, c = some d → EachNode (ReadAlike source) d) :
    Agree SameReference (typeOf? (c.map (readTree source)))
      (typeOf? (c.map (readPlain source))) := by
  cases c with
  | none => exact .ok rfl
  | some d => exact (h d rfl).self.type

theorem expressionOf_agree (h : ∀ d, c = some d → EachNode (ReadAlike source) d) :
    Agree SameName (expressionOf? (c.map (readTree source)))
      (expressionOf? (c.map (readPlain source))) := by
  cases c with
  | none => exact .ok rfl
  | some d => exact (h d rfl).self.expression

theorem bindingOf_agree (h : ∀ d, c = some d → EachNode (ReadAlike source) d) :
    Agree SameBinding (bindingOf? (c.map (readTree source)))
      (bindingOf? (c.map (readPlain source))) := by
  cases c with
  | none => exact .ok rfl
  | some d => exact (h d rfl).self.binding

end Missing

/-! ## Expressions and bindings -/

theorem sameName_refl (a : Option Json) : SameName a a := rfl

theorem sameBinding_refl (a : Option Json) : SameBinding a a := rfl

theorem sameReference_refl (a : Option Json) : SameReference a a := rfl

/-- The name of a property access joins the names of its parts. -/
theorem entityName_propertyAccess (head : CstHead) (object property : Option Json) :
    Node.entityName (make .propertyAccessExpression head
      [("expression", object), ("name", property)]) =
      Node.dotted (Node.entityName (object.getD .null)) (Node.entityName (property.getD .null)) := by
  unfold make flagged
  rw [Node.entityName_obj]
  cases object <;> cases property <;> rfl

/-- The first named child of a node that is not led by a comment, read in both ways: it is the same
node, or it is a comment and without comments there is none. -/
theorem first_cases (source : Source) {head : CstHead}
    (htype : Cst.firstChildTypes.contains head.type = true)
    (hled : ledByComment (.node head () cs) = false) :
    (∃ c : Option SourceTree, (∀ d, c = some d → d ∈ cs) ∧
      (Cst.named (cs.map (readTree source))).head? = c.map (readTree source) ∧
      (Cst.named ((kept cs).map (readPlain source))).head? = c.map (readPlain source)) ∨
    ∃ d : SourceTree, d.isLooseComment = true ∧
      (Cst.named (cs.map (readTree source))).head? = some (readTree source d) ∧
      (Cst.named ((kept cs).map (readPlain source))).head? = none := by
  rw [named_readTree, Cst.named_map head_readPlain, List.head?_map, List.head?_map]
  rcases Cst.head?_named_kept htype hled with hsame | ⟨hnone, d, hd, hloose⟩
  · left
    refine ⟨(Cst.named cs).head?, fun d hd => ?_, rfl, by rw [hsame]⟩
    exact Cst.mem_of_mem_named (List.mem_of_head? hd)
  · right
    exact ⟨d, hloose, by rw [hd]; rfl, by rw [hnone]; rfl⟩

/-! The shapes that stand for a first named child are those of the types for which a leading comment
matters. -/

theorem firstChild_of_parenthesized {type : String}
    (h : ExpressionShape.ofType type = .parenthesized) :
    Cst.firstChildTypes.contains type = true := by
  unfold ExpressionShape.ofType at h
  split at h <;> cases h
  rfl

theorem firstChild_of_rest {type : String} (h : BindingShape.ofType type = .rest) :
    Cst.firstChildTypes.contains type = true := by
  unfold BindingShape.ofType at h
  split at h <;> cases h
  rfl

theorem firstChild_of_type {type : String} (h : TypeShape.ofType type = .wrapper ∨
    TypeShape.ofType type = .array ∨ TypeShape.ofType type = .parenthesized ∨
    TypeShape.ofType type = .literal) : Cst.firstChildTypes.contains type = true := by
  unfold TypeShape.ofType at h
  split at h <;> first | rfl | (rcases h with h | h | h | h <;> cases h)

theorem expression_agree (h : AllReadAlike source cs)
    (hled : ledByComment (.node head () cs) = false) :
    Agree SameName (expression source head (cs.map (readTree source)))
      (expression source head ((kept cs).map (readPlain source))) := by
  unfold expression
  split
  · exact agree_same sameName_refl _
  · rw [childAt?_readTree, childAt?_readTree, childAt?_readPlain, childAt?_readPlain,
      identifierOf?_map source head_readTree, identifierOf?_map source head_readPlain]
    refine (expressionOf_agree (h.childAt "object")).bind fun a b hab => ?_
    refine (agree_refl _).bind fun property _ heq => ?_
    subst heq
    refine .ok ?_
    show Node.entityName (make _ _ _) = Node.entityName (make _ _ _)
    rw [entityName_propertyAccess, entityName_propertyAccess, hab]
  next hshape =>
    rcases first_cases source (firstChild_of_parenthesized hshape) hled with
      ⟨c, hc, hfull, hplain⟩ | ⟨d, hd, hfull, hplain⟩
    · rw [hfull, hplain]
      cases c with
      | none => exact agree_same sameName_refl _
      | some d => exact (h d (hc d rfl)).self.expression
    · rw [hfull, hplain]
      show Agree SameName (readTree source d).note.expression _
      rw [(readTree_comment hd).1]
      exact .ok rfl
  · exact agree_same sameName_refl _
  · exact agree_same sameName_refl _
  · exact agree_same sameName_refl _

theorem binding_agree (h : AllReadAlike source cs)
    (hled : ledByComment (.node head () cs) = false) :
    Agree SameBinding (binding source head (cs.map (readTree source)))
      (binding source head ((kept cs).map (readPlain source))) := by
  unfold binding
  split
  · exact agree_same sameBinding_refl _
  · exact agree_same sameBinding_refl _
  · exact agree_same sameBinding_refl _
  next hshape =>
    rcases first_cases source (firstChild_of_rest hshape) hled with
      ⟨c, hc, hfull, hplain⟩ | ⟨d, hd, hfull, hplain⟩
    · rw [hfull, hplain]
      cases c with
      | none => exact agree_same sameBinding_refl _
      | some d => exact (h d (hc d rfl)).self.binding
    · rw [hfull, hplain]
      show Agree SameBinding (readTree source d).note.binding _
      rw [(readTree_comment hd).2.1]
      exact .ok rfl
  · exact agree_same sameBinding_refl _

/-! ## Parameters -/

theorem typeParameter_agree {c : SourceTree} (h : EachNode (ReadAlike source) c) :
    SucceedAlike (typeParameter source (readTree source c))
      (typeParameter source (readPlain source c)) := by
  unfold typeParameter
  rw [children_readTree, children_readPlain, childAt?_readTree, childAt?_readTree,
    childAt?_readPlain, childAt?_readPlain, identifierOf?_map source head_readTree,
    identifierOf?_map source head_readPlain]
  refine (agree_refl _).bind fun _ _ _ => ?_
  exact (typeOf_agree ((allReadAlike_children h).childAt _)).bind fun _ _ _ => .ok trivial

/-- Reading each of the children of certain types. -/
theorem decodeEach_types {α β : Type} {f : ReadNode → Decoded α} {g : ReadNode → Decoded β}
    {p : String → Bool} (hp : p "comment" = false)
    (h : ∀ c ∈ cs, SucceedAlike (f (readTree source c)) (g (readPlain source c))) :
    SucceedAlike
      (decodeEach f ((Cst.named (cs.map (readTree source))).filter fun c => p c.type))
      (decodeEach g ((Cst.named ((kept cs).map (readPlain source))).filter fun c => p c.type)) := by
  rw [named_readTree, named_readPlain, filter_readTree, filter_readPlain source _ hp]
  refine (agree_decodeEach (S := fun _ _ => True) ?_).succeed
  rw [List.forall₂_map_left_iff, List.forall₂_map_right_iff, List.forall₂_same]
  intro c hc
  exact h c (Cst.mem_of_mem_named (List.mem_filter.mp hc).1)

theorem typeParameters_agree (h : AllReadAlike source cs) :
    SucceedAlike (typeParameters source (cs.map (readTree source)))
      (typeParameters source ((kept cs).map (readPlain source))) := by
  unfold typeParameters
  rw [childAt?_readTree, childAt?_readPlain]
  cases hlist : Cst.childAt? "type_parameters" cs with
  | none => exact .ok trivial
  | some list =>
    have hbelow := allReadAlike_children (h.childAt _ list hlist)
    dsimp only [Option.map_some]
    rw [children_readTree, children_readPlain]
    refine (decodeEach_types (p := fun t => decide (t = "type_parameter")) rfl fun c hc =>
      typeParameter_agree (hbelow c hc)).bind fun _ _ _ => .ok trivial

theorem parameter_agree {c : SourceTree} (h : EachNode (ReadAlike source) c) :
    SucceedAlike (parameter source (readTree source c)) (parameter source (readPlain source c)) := by
  unfold parameter
  rw [children_readTree, children_readPlain, modifiers_readTree, modifiers_readPlain,
    childAt?_readTree, childAt?_readTree, childAt?_readPlain, childAt?_readPlain]
  have hbelow := allReadAlike_children h
  refine (agree_refl _).bind fun _ _ _ => ?_
  refine (bindingOf_agree (hbelow.childAt "pattern")).bind fun _ _ _ => ?_
  exact (typeOf_agree (hbelow.childAt "type")).bind fun _ _ _ => .ok trivial

theorem parameters_agree {c : Option SourceTree}
    (h : ∀ d, c = some d → EachNode (ReadAlike source) d) :
    SucceedAlike (parameters source (c.map (readTree source)))
      (parameters source (c.map (readPlain source))) := by
  unfold parameters
  cases c with
  | none => exact .ok trivial
  | some list =>
    have hbelow := allReadAlike_children (h list rfl)
    show SucceedAlike (do
      let parameters ← decodeEach (parameter source)
        ((Cst.named (readTree source list).children).filter _)
      pure (Json.arr parameters)) (do
      let parameters ← decodeEach (parameter source)
        ((Cst.named (readPlain source list).children).filter _)
      pure (Json.arr parameters))
    rw [children_readTree, children_readPlain]
    refine (decodeEach_types (p := fun t => t = "required_parameter" || t = "optional_parameter")
      rfl fun c hc => parameter_agree (hbelow c hc)).bind fun _ _ _ => .ok trivial

/-! ## Members -/

theorem typeMember_agree {c : SourceTree} (h : EachNode (ReadAlike source) c) :
    SucceedAlike (typeMember source (readTree source c))
      (typeMember source (readPlain source c)) := by
  have hbelow := allReadAlike_children h
  have hfull : (readTree source c).type = c.type := congrArg CstHead.type (head_readTree c)
  have hplain : (readPlain source c).type = c.type := congrArg CstHead.type (head_readPlain c)
  unfold typeMember
  rw [hfull, hplain, children_readTree, children_readPlain]
  split
  · exact .ok trivial
  · rw [modifiers_readTree, modifiers_readPlain, childAt?_readTree, childAt?_readTree,
      childAt?_readPlain, childAt?_readPlain, propertyName_map source head_readTree,
      propertyName_map source head_readPlain]
    refine (agree_refl _).bind fun _ _ _ => ?_
    refine (agree_refl _).bind fun _ _ _ => ?_
    exact (typeOf_agree (hbelow.childAt "type")).bind fun _ _ _ => .ok trivial
  · rw [childAt?_readTree, childAt?_readTree, childAt?_readTree, childAt?_readPlain,
      childAt?_readPlain, childAt?_readPlain, propertyName_map source head_readTree,
      propertyName_map source head_readPlain]
    refine (agree_refl _).bind fun _ _ _ => ?_
    refine (typeParameters_agree hbelow).bind fun _ _ _ => ?_
    refine (parameters_agree (hbelow.childAt "parameters")).bind fun _ _ _ => ?_
    exact (typeOf_agree (hbelow.childAt "return_type")).bind fun _ _ _ => .ok trivial
  · exact .ok trivial

theorem typeMember_comment {c : SourceTree} (h : c.isLooseComment = true) :
    typeMember source (readTree source c) = .ok [] := by
  have htype : (readTree source c).type = "comment" :=
    (congrArg CstHead.type (head_readTree c)).trans (Cst.type_of_isLooseComment h)
  unfold typeMember
  rw [htype]
  rfl

theorem typeMembers_agree (h : AllReadAlike source cs) :
    SucceedAlike (typeMembers source (cs.map (readTree source)))
      (typeMembers source ((kept cs).map (readPlain source))) := by
  unfold typeMembers
  rw [named_readTree, named_readPlain]
  refine (succeed_decodeEach (fun c _ hloose => ⟨_, typeMember_comment hloose⟩) fun c hc => ?_).bind
    fun _ _ _ => .ok trivial
  exact typeMember_agree (h.named c hc)

/-! ## Types -/

/-- A list of types, in which comments are types that are not known. -/
theorem typeList_agree (h : AllReadAlike source cs) :
    SucceedAlike (typeList (cs.map (readTree source)))
      (typeList ((kept cs).map (readPlain source))) := by
  unfold typeList
  refine (succeed_decodeEach (fun c _ hloose => ⟨_, (readTree_comment hloose).2.2.1⟩)
    fun c hc => ?_).map fun _ _ _ => trivial
  exact (h c hc).self.type.succeed

/-- The first child of a type that is not led by a comment. -/
theorem firstType_agree (h : AllReadAlike source cs)
    (htype : Cst.firstChildTypes.contains head.type = true)
    (hled : ledByComment (.node head () cs) = false) :
    Agree SameReference (typeOf? (Cst.named (cs.map (readTree source))).head?)
      (typeOf? (Cst.named ((kept cs).map (readPlain source))).head?) := by
  rcases first_cases source htype hled with ⟨c, hc, hfull, hplain⟩ | ⟨d, hd, hfull, hplain⟩
  · rw [hfull, hplain]
    exact typeOf_agree fun d hd => h d (hc d hd)
  · rw [hfull, hplain]
    show Agree SameReference (readTree source d).note.type _
    rw [(readTree_comment hd).2.2.1]
    exact .ok rfl

theorem firstExpression_agree (h : AllReadAlike source cs)
    (htype : Cst.firstChildTypes.contains head.type = true)
    (hled : ledByComment (.node head () cs) = false) :
    SucceedAlike (expressionOf? (Cst.named (cs.map (readTree source))).head?)
      (expressionOf? (Cst.named ((kept cs).map (readPlain source))).head?) := by
  rcases first_cases source htype hled with ⟨c, hc, hfull, hplain⟩ | ⟨d, hd, hfull, hplain⟩
  · rw [hfull, hplain]
    exact (expressionOf_agree fun d hd => h d (hc d hd)).succeed
  · rw [hfull, hplain]
    show SucceedAlike (readTree source d).note.expression _
    rw [(readTree_comment hd).1]
    exact .ok trivial

/-- The operands of a type with an operator. -/
theorem operands_agree {operator : String} (hoperator : operator ≠ "comment")
    (h : AllReadAlike source cs) :
    SucceedAlike (typeList (Cst.operandsAmong operator (cs.map (readTree source))))
      (typeList (Cst.operandsAmong operator ((kept cs).map (readPlain source)))) := by
  have hfull : Cst.operandsAmong operator (cs.map (readTree source)) =
      (Cst.operandsAmong operator cs).map (readTree source) :=
    Cst.operandsAmong_annotate _ operator cs
  have hplain : Cst.operandsAmong operator ((kept cs).map (readPlain source)) =
      (kept (Cst.operandsAmong operator cs)).map (readPlain source) := by
    have hmap : (kept cs).map (readPlain source) =
        ((kept cs).map Cst.dropComments).map (readTree source) := by
      rw [List.map_map]
      rfl
    rw [hmap]
    rw [show Cst.operandsAmong operator (((kept cs).map Cst.dropComments).map (readTree source)) =
      (Cst.operandsAmong operator ((kept cs).map Cst.dropComments)).map (readTree source) from
      Cst.operandsAmong_annotate _ operator _, Cst.operandsAmong_kept hoperator
      fun c _ => Cst.operands_dropComments hoperator c, List.map_map]
    rfl
  rw [hfull, hplain]
  exact typeList_agree (Cst.eachNode_operandsAmong h)

/-- Types without a name to refer to. -/
theorem sameReference_missing {kind : SyntaxKind} {fs gs : List (String × Option Json)}
    (hfs : "typeName" ∉ fs.map Prod.fst) (hgs : "typeName" ∉ gs.map Prod.fst) :
    SameReference (some (make kind head fs)) (some (make kind head gs)) := by
  have hmissing : ∀ fields : List (String × Option Json), "typeName" ∉ fields.map Prod.fst →
      (make kind head fields).field "typeName" = .null :=
    fun _ hfields => lookup_present_of_not_mem hfields
  show (make kind head fs).field "typeName" = (make kind head gs).field "typeName"
  rw [hmissing fs hfs, hmissing gs hgs]

/-- A generic type refers to its name, whatever its arguments are. -/
theorem sameReference_generic (name a b : Option Json) :
    SameReference (some (make .typeReference head [("typeName", name), ("typeArguments", a)]))
      (some (make .typeReference head [("typeName", name), ("typeArguments", b)])) := by
  have hname : ∀ arguments, (make .typeReference head
      [("typeName", name), ("typeArguments", arguments)]).field "typeName" = name.getD .null := by
    intro arguments
    show lookup "typeName" (present [("typeName", name), ("typeArguments", arguments)]) = _
    rw [lookup_present_cons _ _ _ _ (by simp), if_pos rfl]
  show (make _ _ _).field "typeName" = (make _ _ _).field "typeName"
  rw [hname, hname]

/-- A generic type, given its name. -/
theorem typeArguments_agree (head : CstHead) {list : Option SourceTree}
    (h : ∀ d, list = some d → EachNode (ReadAlike source) d) (name : Option Json) :
    Agree SameReference
      (do
        let arguments ← match list.map (readTree source) with
          | none => .ok none
          | some list => some <$> typeList (Cst.named list.children)
        return some (make .typeReference head
          [("typeName", name), ("typeArguments", arguments)]))
      (do
        let arguments ← match list.map (readPlain source) with
          | none => .ok none
          | some list => some <$> typeList (Cst.named list.children)
        return some (make .typeReference head
          [("typeName", name), ("typeArguments", arguments)])) := by
  cases list with
  | none => exact .ok rfl
  | some list =>
    have hbelow := allReadAlike_children (h list rfl)
    dsimp only [Option.map_some]
    rw [children_readTree, children_readPlain, named_readTree, named_readPlain]
    refine Agree.bind (R := fun _ _ => True) ?_ fun _ _ _ => .ok (sameReference_generic name _ _)
    exact (typeList_agree hbelow.named).map fun _ _ _ => trivial

theorem union_type {type : String} (h : TypeShape.ofType type = .union ∨
    TypeShape.ofType type = .intersection) : type ≠ "comment" := by
  rintro rfl
  rcases h with h | h <;> cases h

theorem typeNode_agree (h : AllReadAlike source cs)
    (hled : ledByComment (.node head () cs) = false) :
    Agree SameReference (typeNode source head (cs.map (readTree source)))
      (typeNode source head ((kept cs).map (readPlain source))) := by
  unfold typeNode
  dsimp only
  split
  next hshape =>
    -- an annotation stands for the type in it
    exact firstType_agree h (firstChild_of_type (.inl hshape)) hled
  · -- a name
    exact agree_same sameReference_refl _
  · -- a dotted name
    exact agree_same sameReference_refl _
  · -- a name with arguments
    rw [childAt?_readTree, childAt?_readTree, childAt?_readPlain, childAt?_readPlain]
    have harguments := typeArguments_agree head (h.childAt "type_arguments")
    cases Cst.childAt? "name" cs with
    | none => exact harguments none
    | some c =>
      dsimp only [Option.map_some]
      rw [head_readTree, head_readPlain]
      refine (agree_refl _).bind fun name _ heq => ?_
      subst heq
      exact harguments name
  · -- a predefined type
    exact agree_same sameReference_refl _
  next hshape =>
    -- an array
    refine (firstType_agree h (firstChild_of_type (.inr (.inl hshape))) hled).bind fun _ _ _ => ?_
    exact .ok (sameReference_missing (by simp) (by simp))
  next hshape =>
    -- a union, whose operands are flat
    exact (operands_agree (union_type (.inl hshape)) h).bind fun _ _ _ => .ok rfl
  next hshape =>
    -- an intersection, whose operands are flat
    exact (operands_agree (union_type (.inr hshape)) h).bind fun _ _ _ => .ok rfl
  next hshape =>
    -- a type in parentheses
    refine (firstType_agree h (firstChild_of_type (.inr (.inr (.inl hshape)))) hled).bind
      fun _ _ _ => ?_
    exact .ok (sameReference_missing (by simp) (by simp))
  · -- a tuple
    rw [named_readTree, named_readPlain]
    exact (typeList_agree h.named).bind fun _ _ _ => .ok rfl
  next hshape =>
    -- a literal
    refine (firstExpression_agree h (firstChild_of_type (.inr (.inr (.inr hshape)))) hled).bind
      fun _ _ _ => ?_
    exact .ok (sameReference_missing (by simp) (by simp))
  · -- the members of an object type
    exact (typeMembers_agree h).bind fun _ _ _ => .ok rfl
  · -- the type of a function
    rw [childAt?_readTree, childAt?_readTree, childAt?_readPlain, childAt?_readPlain]
    refine (parameters_agree (h.childAt "parameters")).bind fun _ _ _ => ?_
    refine (typeOf_agree (h.childAt "return_type")).bind fun _ _ _ => ?_
    exact .ok (sameReference_missing (by simp) (by simp))
  · -- anything else
    exact agree_same sameReference_refl _

end DeclCatalogue.Tree
