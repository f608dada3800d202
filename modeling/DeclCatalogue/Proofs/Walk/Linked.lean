import DeclCatalogue.Proofs.Node.Parent
import DeclCatalogue.Proofs.Walk.Congruence

/-!
# Walking a linked tree

The tree of a file is walked with its nodes linked to their parents. `tree_linkUnder` says that
nobody can tell: the walk of a linked tree reports the same events, records with their nodes and log
entries included, and ends in the same way up to the outline of a fault, whose node may be linked.
What follows is therefore said of trees without links.
-/

namespace DeclCatalogue.Walker

open Json (lookup)
open Node (linkUnder linked)

variable {w : Walker}

/-- A value that keeps to the schema, and how it is linked in some tree. -/
def IsLinkOf (u v : Json) : Prop :=
  u.EachObject Tree.Conforms ∧ ∃ enclosing, v = linkUnder enclosing u

/-- Nothing that a walk goes by is changed by links. -/
theorem objectsRelated_linked {fields : Fields} (h : (Json.obj fields).EachObject Tree.Conforms)
    (enclosing : Option Json) :
    ObjectsRelated w some IsLinkOf fields (linked enclosing fields) := by
  obtain ⟨⟨kind, hfields⟩, -⟩ := Json.eachObject_obj.mp h
  have htag := Node.lookup_kind_linked hfields enclosing
  refine ⟨?_, fun collector context => ?_, ?_, fun _ => ⟨htag.symm, ?_⟩, ?_, ?_, ?_, ?_⟩
  · rw [KindTable.kindName, KindTable.kindName, htag]
  · -- a collector sees the stripped node only, and stripping takes the links away
    rw [← Node.linkUnder_obj, collect_congr (Node.strip_linkUnder (.obj fields) enclosing)]
    exact Walk.alike_refl _
  · rw [Node.lookup_linked (by decide)]
    exact (Node.identifierText_linkUnder (Node.eachObject_hasPlainTexts (h.lookup "name")) _).symm
  · rw [Node.lookup_flags_linked hfields enclosing]
  · rw [Node.lookup_linked (by decide), Node.truthy_linkUnder (h.lookup "body")]
  · rw [Node.lookup_linked (by decide), Node.kindName_linkUnder (h.lookup "body")]
  · exact ⟨h.lookup "body", _, Node.lookup_linked (by decide) _ _⟩
  · exact ⟨h.lookup "statements", _, Node.lookup_linked (by decide) _ _⟩

theorem related_linked {u v : Json} (h : IsLinkOf u v) : Related w some IsLinkOf u v := by
  obtain ⟨hu, enclosing, rfl⟩ := h
  cases u with
  | obj fields =>
    rw [Node.linkUnder_obj]
    exact .object (objectsRelated_linked hu enclosing)
  | arr us =>
    refine .list ?_
    have hitems := Json.eachObject_arr.mp hu
    clear hu
    induction us with
    | nil => exact .nil
    | cons u rest ih =>
      exact .cons ⟨hitems u (List.mem_cons_self ..), enclosing, rfl⟩
        (ih fun u hu => hitems u (List.mem_cons_of_mem _ hu))
  | _ => exact .primitive rfl

/-- **Links are not seen.** A linked tree that keeps to the schema is walked like the tree itself.
-/
theorem tree_linkUnder {v : Json} (h : v.EachObject Tree.Conforms) (enclosing : Option Json)
    (context : Json) :
    (w.tree context (linkUnder enclosing v)).Alike some Eq (w.tree context v) :=
  (walkAs_related related_linked ⟨h, enclosing, rfl⟩ context .tree).symm

end DeclCatalogue.Walker
