import DeclCatalogue.Proofs.Cst.Operands
import DeclCatalogue.Proofs.Tree.ReadAlike

/-!
# Unions and intersections

A parser nests the operands of a union one way or another, to the left as a rule and otherwise where
there are parentheses or leading bars, and keeps the nodes between them. What is built of a union
lists what is built of each operand, in the order of their places, and takes nothing else from the
nodes in between; the same goes for intersections. So it is the operands alone that decide on the
list (`readTree_operands`).
-/

namespace DeclCatalogue.Tree

open Cst (OperandsInOrder)

variable {source : Source}

/-- The types of the nodes that join types by an operator. -/
def operatorTypes : List String :=
  ["union_type", "intersection_type"]

/-- What is built of a type that is put together from others by an operator or by parentheses. -/
def compoundKind (type : String) : SyntaxKind :=
  if type = "union_type" then .unionType
  else if type = "intersection_type" then .intersectionType
  else .parenthesizedType

/-- The list of operands in what is built of a type. -/
def typesOf (type : Option Json) : Json :=
  (type.getD .null).field "types"

theorem decodeEach_map {α β γ : Type} (f : α → β) (step : β → Decoded γ) (xs : List α) :
    decodeEach step (xs.map f) = decodeEach (fun x => step (f x)) xs := by
  induction xs with
  | nil => rfl
  | cons x rest ih => rw [List.map_cons, decodeEach, decodeEach, ih]

/-- What is listed is not changed by the kind and the range of the node that lists it. -/
theorem map_typesOf {kind : SyntaxKind} {head : CstHead} (types : Decoded (List (Option Json))) :
    (types.map fun types => some (make kind head [("types", some (listOf types))])).map typesOf =
      types.map listOf := by
  cases types <;> rfl

/-- The operands among the children of a node, each read, are the operands of the node, read. -/
theorem operandsAmong_readTree (source : Source) (c : SourceTree) :
    Cst.operandsAmong c.type (c.children.map (readTree source)) =
      (Cst.operands c.type c).map (readTree source) := by
  cases c with
  | node h a cs =>
    rw [Cst.operands, if_pos (show h.type = (Cst.node h a cs).type from rfl)]
    exact Cst.operandsAmong_annotate _ h.type cs

/-- A union or an intersection is made of what its operands are read as, and of nothing else. -/
theorem type_readTree_operands (source : Source) {c : SourceTree} (hc : c.type ∈ operatorTypes) :
    (readTree source c).note.type =
      (decodeEach (fun d => (readTree source d).note.type) (Cst.operands c.type c)).map
        fun types => some (make (compoundKind c.type) c.head [("types", some (listOf types))]) := by
  have hlist : ∀ kind, (do
      let types ← typeList (Cst.operandsAmong c.type (c.children.map (readTree source)))
      return some (make kind c.head [("types", some types)]) : Decoded (Option Json)) =
      (decodeEach (fun d => (readTree source d).note.type) (Cst.operands c.type c)).map
        fun types => some (make kind c.head [("types", some (listOf types))]) := by
    intro kind
    rw [operandsAmong_readTree, typeList, decodeEach_map]
    cases decodeEach (fun d => (readTree source d).note.type) (Cst.operands c.type c) <;> rfl
  rw [note_readTree]
  show typeNode source c.head (c.children.map (readTree source)) = _
  unfold typeNode
  simp only [operatorTypes, List.mem_cons, List.not_mem_nil, or_false] at hc
  rcases hc with hunion | hintersection
  · rw [show TypeShape.ofType c.head.type = .union by rw [show c.head.type = _ from hunion]; rfl,
      show compoundKind c.type = .unionType by rw [hunion]; rfl]
    exact hlist .unionType
  · rw [show TypeShape.ofType c.head.type = .intersection by
        rw [show c.head.type = _ from hintersection]; rfl,
      show compoundKind c.type = .intersectionType by rw [hintersection]; rfl]
    exact hlist .intersectionType

/-- A type that is put together by an operator or by parentheses is one node over its range. -/
theorem type_readTree_compound (source : Source) {c : SourceTree}
    (hc : c.type ∈ "parenthesized_type" :: operatorTypes) :
    Yields (readTree source c).note.type fun type =>
      ∃ fields, type = some (make (compoundKind c.type) c.head fields) := by
  rcases List.mem_cons.mp hc with hparentheses | hoperator
  · rw [note_readTree]
    show Yields (typeNode source c.head (c.children.map (readTree source))) _
    unfold typeNode
    rw [show TypeShape.ofType c.head.type = .parenthesized by
        rw [show c.head.type = _ from hparentheses]; rfl,
      show compoundKind c.type = .parenthesizedType by rw [hparentheses]; rfl]
    exact (yields_any _).bind fun inner _ => yields_pure ⟨_, rfl⟩
  · rw [type_readTree_operands source hoperator]
    exact (yields_any _).map fun types _ => ⟨_, rfl⟩

/-- **A union does not depend on how it is nested.** The node that is built of a union or an
intersection lists what its operands are read as. They are the named nodes below it at which nodes
of the same operator end, from left to right, and none of them is such a node itself; one that has
the other operator or stands in parentheses is read as a single node. If nodes of the same operator
have the same operands in order, they are built with the same list, or fail alike, in whatever way
they are nested. -/
theorem readTree_operands (source : Source) (c : SourceTree) (hc : c.type ∈ operatorTypes) :
    ∃ ds, OperandsInOrder c.type c ds ∧
      (∀ d ∈ ds, d.type ≠ c.type ∧ (d.type ∈ "parenthesized_type" :: operatorTypes →
        Yields (readTree source d).note.type fun type =>
          ∃ fields, type = some (make (compoundKind d.type) d.head fields))) ∧
      (readTree source c).note.type =
        (decodeEach (fun d => (readTree source d).note.type) ds).map (fun types =>
          some (make (compoundKind c.type) c.head [("types", some (listOf types))])) ∧
      ∀ other : SourceTree, other.type = c.type → OperandsInOrder c.type other ds →
        (readTree source other).note.type.map typesOf =
          (readTree source c).note.type.map typesOf := by
  have horder := Cst.operandsInOrder_operands c.type c
  refine ⟨Cst.operands c.type c, horder, fun d hd => ⟨?_, type_readTree_compound source⟩,
    type_readTree_operands source hc, fun other htype hother => ?_⟩
  · obtain ⟨place, hplace⟩ := horder.exists_place hd
    exact hplace.ends
  · have hoperands := Cst.operandsInOrder_iff.mp hother
    rw [type_readTree_operands source hc, type_readTree_operands source (htype.symm ▸ hc), htype,
      hoperands, map_typesOf, map_typesOf]

/-- Four ways to nest three operands, one of them in parentheses and one an intersection. -/
theorem readTree_operands_nested :
    let source : Source := .ofText "A | (B | C) | D & E"
    let node (type : String) (start stop : Nat) (children : List SourceTree) : SourceTree :=
      .node ⟨type, true, none, start, stop⟩ () children
    let bar (start : Nat) : SourceTree := .node ⟨"|", false, none, start, start + 1⟩ () []
    let name (start : Nat) : SourceTree := node "type_identifier" start (start + 1) []
    let group := node "parenthesized_type" 4 11 [node "union_type" 5 10 [name 5, bar 7, name 9]]
    let both := node "intersection_type" 14 19 [name 14, name 18]
    let left := node "union_type" 0 19 [node "union_type" 0 11 [name 0, bar 2, group], bar 12, both]
    let right := node "union_type" 0 19 [name 0, bar 2, node "union_type" 4 19 [group, bar 12, both]]
    let flat := node "union_type" 0 19 [name 0, bar 2, group, bar 12, both]
    left.type ∈ operatorTypes ∧ OperandsInOrder "union_type" left [name 0, group, both] ∧
      (∀ other ∈ [left, right, flat],
        (readTree source other).note.type.map typesOf =
          (readTree source left).note.type.map typesOf) := by
  intro source node bar name group both left right flat
  have hleft : left.type ∈ operatorTypes := by decide
  obtain ⟨ds, horder, -, -, hsame⟩ := readTree_operands source left hleft
  obtain rfl : [name 0, group, both] = ds := Cst.operandsInOrder_iff.mp horder
  refine ⟨hleft, horder, fun other hother => ?_⟩
  have hnested : ∀ other ∈ [left, right, flat], other.type = "union_type" ∧
      Cst.operands "union_type" other = [name 0, group, both] := by
    intro other hother
    simp only [List.mem_cons, List.not_mem_nil, or_false] at hother
    obtain rfl | rfl | rfl := hother <;> exact ⟨rfl, rfl⟩
  obtain ⟨htype, hoperands⟩ := hnested other hother
  exact hsame other htype (Cst.operandsInOrder_iff.mpr hoperands)

end DeclCatalogue.Tree
