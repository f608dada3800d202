import DeclCatalogue.Proofs.Tree.Comments
import DeclCatalogue.Proofs.Tree.TypeName

/-!
# The name that an expression stands for

A chain of member accesses is read as one property access around the other, from the innermost
object outwards, and the resolver of names takes them apart in the same order. `IsChain` says of a
concrete node which names it is a chain of, with parentheses around any part, and `readTree_chain`
that the node is read as an expression with the name made of them. It takes one link that is not
named for the whole to have no name: `readTree_endsUnnamed` says so of the innermost one.

Both go by induction on the chain, with one case for each way in which an expression can be around
another one.
-/

namespace DeclCatalogue

/-- A node is a chain of names: an identifier, a property of a chain, or a chain in parentheses. -/
inductive IsChain (source : Source) : List String → SourceTree → Prop where
  | name {name : String} {c : SourceTree} : c.type = "identifier" →
      source.text c.head = .ok name → name ≠ "" → IsChain source [name] c
  | property {names : List String} {name : String} {object property c : SourceTree} :
      c.type = "member_expression" → Cst.childAt? "object" c.children = some object →
      IsChain source names object → Cst.childAt? "property" c.children = some property →
      source.text property.head = .ok name → name ≠ "" → IsChain source (names ++ [name]) c
  | parenthesized {names : List String} {inner c : SourceTree} :
      c.type = "parenthesized_expression" → (Cst.named c.children).head? = some inner →
      IsChain source names inner → IsChain source names c

/-- The types of nodes that say something as an expression. -/
def expressionTypes : List String :=
  ["identifier", "property_identifier", "type_identifier", "member_expression",
   "parenthesized_expression", "string", "number"]

/-- The innermost object of a node says nothing as an expression. -/
inductive EndsUnnamed : SourceTree → Prop where
  | innermost {c : SourceTree} : c.type ∉ expressionTypes → EndsUnnamed c
  | property {object c : SourceTree} : c.type = "member_expression" →
      Cst.childAt? "object" c.children = some object → EndsUnnamed object → EndsUnnamed c
  | parenthesized {inner c : SourceTree} : c.type = "parenthesized_expression" →
      (Cst.named c.children).head? = some inner → EndsUnnamed inner → EndsUnnamed c

variable {source : Source} {c : SourceTree} {names : List String}

/-- A chain is made of one name or more. -/
theorem IsChain.areNames (h : IsChain source names c) : names ≠ [] ∧ Tree.AreNames names := by
  have hformed : ∀ {head : CstHead} {name : String}, source.text head = .ok name → name ≠ "" →
      Tree.AreNames [name] := fun htext hname =>
    List.forall_mem_singleton.mpr ⟨hname, source.yields_text _ _ htext⟩
  induction h with
  | name _ htext hname => exact ⟨List.cons_ne_nil _ _, hformed htext hname⟩
  | property _ _ _ _ htext hname ih =>
    refine ⟨List.append_ne_nil_of_left_ne_nil ih.1 _, ?_⟩
    exact List.forall_mem_append.mpr ⟨ih.2, hformed htext hname⟩
  | parenthesized _ _ _ ih => exact ih

namespace Tree

/-- What an expression is by the type of its node. -/
theorem expression_readTree (source : Source) (c : SourceTree) :
    (readTree source c).note.expression =
      match ExpressionShape.ofType c.type with
      | .name => identifier source c.head
      | .memberAccess => do
        let object ← ((Cst.childAt? "object" c.children).map fun o =>
          (readTree source o).note.expression).getD (.ok none)
        let property ← ((Cst.childAt? "property" c.children).map fun p =>
          identifier source p.head).getD (.ok none)
        return some (make .propertyAccessExpression c.head
          [("expression", object), ("name", property)])
      | .parenthesized =>
        ((Cst.named c.children).head?.map fun inner =>
          (readTree source inner).note.expression).getD (.ok (some (make .unknown c.head [])))
      | .text => some <$> stringLiteral source c.head
      | .number => some <$> numericLiteral source c.head
      | .other => .ok (some (make .unknown c.head [])) := by
  rw [note_readTree]
  show expression source c.head (c.children.map (readTree source)) = _
  unfold expression
  rw [childAt?_readTree, childAt?_readTree, named_readTree, List.head?_map, Cst.type]
  cases ExpressionShape.ofType c.head.type with
  | memberAccess =>
    dsimp only
    cases Cst.childAt? "object" c.children <;> cases Cst.childAt? "property" c.children <;>
      simp only [Option.map_some, Option.map_none, expressionOf?, identifierOf?, head_readTree] <;>
      rfl
  | parenthesized => cases (Cst.named c.children).head? <;> rfl
  | _ => rfl

/-- **A chain is read as an expression with its names, joined by points.** -/
theorem readTree_chain (h : IsChain source names c) :
    Yields (readTree source c).note.expression fun e =>
      Node.entityName (e.getD .null) = some (.str (".".intercalate names)) := by
  have hidentifier : ∀ {head : CstHead} {name : String}, source.text head = .ok name → name ≠ "" →
      Yields (identifier source head) fun e =>
        Node.entityName (e.getD .null) = some (.str name) := by
    intro head name htext hname
    unfold identifier
    rw [htext]
    exact yields_ok (entityName_identifierNamed head hname)
  induction h with
  | name htype htext hname =>
    rw [expression_readTree, htype, String.intercalate_singleton]
    exact hidentifier htext hname
  | property htype hobject hchain hproperty htext hname ih =>
    rw [expression_readTree, htype, hobject, hproperty]
    refine Yields.bind ih fun object hleft => ?_
    refine Yields.bind (hidentifier htext hname) fun property hright => yields_pure ?_
    rw [String.intercalate_append_of_ne_nil hchain.areNames.1 (List.cons_ne_nil _ _),
      String.intercalate_singleton]
    show Node.entityName (make _ _ _) = _
    rw [entityName_propertyAccess, hleft, hright]
    rfl
  | parenthesized htype hinner _ ih =>
    rw [expression_readTree, htype, hinner]
    exact ih

/-- A type that says nothing as an expression. -/
theorem shape_of_not_mem_expressionTypes {type : String} (h : type ∉ expressionTypes) :
    ExpressionShape.ofType type = .other := by
  unfold ExpressionShape.ofType
  split
  all_goals first
    | rfl
    | exact absurd (by decide) h

/-- **Without a name for the innermost object there is none for the whole.** -/
theorem readTree_endsUnnamed (source : Source) (h : EndsUnnamed c) :
    Yields (readTree source c).note.expression fun e => Node.entityName (e.getD .null) = none := by
  induction h with
  | innermost htype =>
    rw [expression_readTree, shape_of_not_mem_expressionTypes htype]
    exact yields_ok rfl
  | property htype hobject _ ih =>
    rw [expression_readTree, htype, hobject]
    refine Yields.bind ih fun object hleft => ?_
    refine (yields_any _).bind fun property _ => yields_pure ?_
    show Node.entityName (make _ _ _) = none
    rw [entityName_propertyAccess, hleft]
    rfl
  | parenthesized htype hinner _ ih =>
    rw [expression_readTree, htype, hinner]
    exact ih

end Tree

end DeclCatalogue
