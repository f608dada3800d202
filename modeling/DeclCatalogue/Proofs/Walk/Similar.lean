import DeclCatalogue.Proofs.Walk.View

/-!
# Similar nodes

Two nodes are similar if the same is read off both, and their bodies and statements are similar in
turn. In everything else they may differ: in their ranges, and in fields that no collector looks at,
such as parameters, members and type arguments. `statements_similar` says that lists of similar
statements that keep to the schema are walked alike.
-/

namespace DeclCatalogue

open Json (lookup)

/-- Values from which a walk reads the same. -/
inductive Node.Similar : Json → Json → Prop where
  | null : Node.Similar .null .null
  | node {f g : Fields} (view : ∀ kinds, View.of kinds f = View.of kinds g)
      (body : Node.Similar (lookup "body" f) (lookup "body" g))
      (left : lookup "statements" f = .null) (right : lookup "statements" g = .null) :
      Node.Similar (.obj f) (.obj g)
  | listed {f g : Fields} {us vs : List Json} (view : ∀ kinds, View.of kinds f = View.of kinds g)
      (body : Node.Similar (lookup "body" f) (lookup "body" g))
      (left : lookup "statements" f = .arr us) (right : lookup "statements" g = .arr vs)
      (items : List.Forall₂ Node.Similar us vs) : Node.Similar (.obj f) (.obj g)

namespace View

/-- Walking by a view, with bodies that are walked alike. -/
theorem statement_congr (v : View) (w : Walker) {body other : String → Walk Unit}
    (h : ∀ inner, (body inner).Alike Event.bare Eq (other inner)) (context : String) :
    (v.statement w body context).Alike Event.bare Eq (v.statement w other context) := by
  unfold statement
  split
  · exact Walk.alike_refl _
  · exact Walk.alike_refl _
  · refine (Walk.alike_refl _).bind fun inner _ heq => ?_
    rw [heq]
    exact h _

end View

namespace Walker

variable {w : Walker} {f g : Fields}

/-- The kind under which a node is walked. -/
theorem kindName_congr (h : View.of w.kinds f = View.of w.kinds g) :
    w.kinds.kindName (.obj f) = w.kinds.kindName (.obj g) := by
  have htag : lookup "kind" f = lookup "kind" g := congrArg View.tag h
  rw [KindTable.kindName, KindTable.kindName, htag]

theorem noStatements_congr (h : View.of w.kinds f = View.of w.kinds g) :
    w.noStatements (.obj f) = w.noStatements (.obj g) := by
  unfold noStatements
  rw [kindName_congr h]

/-- A node that keeps to the schema counts as present. -/
theorem truthy_of_conforms (h : (Json.obj f).EachObject Tree.Conforms) :
    (Json.obj f).truthy = true := by
  obtain ⟨⟨kind, hfields⟩, -⟩ := Json.eachObject_obj.mp h
  exact truthy_of_kind hfields.kind_eq (by simp)

/-- Similar bodies of two nodes are walked alike, given that they are as statements and as trees. -/
theorem innerBody_similar (hf : (Json.obj f).EachObject Tree.Conforms)
    (hg : (Json.obj g).EachObject Tree.Conforms)
    (h : Node.Similar (lookup "body" f) (lookup "body" g))
    (hstatement : ∀ context : String, (w.statement (.str context) (lookup "body" f)).Alike
      Event.bare Eq (w.statement (.str context) (lookup "body" g)))
    (htree : ∀ context : String, (w.tree (.str context) (lookup "body" f)).Alike
      Event.bare Eq (w.tree (.str context) (lookup "body" g))) (context : String) :
    (w.innerBody f context).Alike Event.bare Eq (w.innerBody g context) := by
  have hbodies : (lookup "body" f).truthy = (lookup "body" g).truthy ∧
      w.kinds.kindName (lookup "body" f) = w.kinds.kindName (lookup "body" g) := by
    have hfbody := hf.lookup "body"
    have hgbody := hg.lookup "body"
    revert hfbody hgbody
    generalize lookup "body" f = u at h ⊢
    generalize lookup "body" g = v at h ⊢
    intro hu hv
    cases h with
    | null => exact ⟨rfl, rfl⟩
    | node view =>
      exact ⟨by rw [truthy_of_conforms hu, truthy_of_conforms hv], kindName_congr (view _)⟩
    | listed view =>
      exact ⟨by rw [truthy_of_conforms hu, truthy_of_conforms hv], kindName_congr (view _)⟩
  unfold innerBody
  by_cases hpresent : (lookup "body" f).truthy = true
  · have hother : (lookup "body" g).truthy = true := hbodies.1 ▸ hpresent
    rw [if_pos hpresent, if_pos hother, bodyIn_eq w _ f hpresent, bodyIn_eq w _ g hother, hbodies.2]
    refine (Walk.alike_refl _).bind fun kind _ heq => ?_
    subst heq
    split
    · exact hstatement context
    · exact htree context
  · have hother : ¬ (lookup "body" g).truthy = true := hbodies.1 ▸ hpresent
    rw [if_neg hpresent, if_neg hother]
    exact Walk.alike_refl _

/-- Statements whose views are the same and whose bodies are walked alike. -/
theorem statement_congr (hf : (Json.obj f).EachObject Tree.Conforms)
    (hg : (Json.obj g).EachObject Tree.Conforms) (hview : View.of w.kinds f = View.of w.kinds g)
    (hbody : ∀ inner, (w.innerBody f inner).Alike Event.bare Eq (w.innerBody g inner))
    (context : String) :
    (w.statement (.str context) (.obj f)).Alike Event.bare Eq
      (w.statement (.str context) (.obj g)) := by
  refine (statement_view hf context).trans ?_
  rw [hview]
  exact ((View.of w.kinds g).statement_congr w hbody context).trans (statement_view hg context).symm

/-- A value that is similar to another one as a statement and as a tree, and lists of such values.
-/
private theorem walk_similar (w : Walker) (u : Json) : u.EachObject Tree.Conforms →
    (∀ v, Node.Similar u v → v.EachObject Tree.Conforms → ∀ context : String,
      (w.statement (.str context) u).Alike Event.bare Eq (w.statement (.str context) v) ∧
      (w.tree (.str context) u).Alike Event.bare Eq (w.tree (.str context) v)) ∧
    ∀ us, u = .arr us → ∀ vs, List.Forall₂ Node.Similar us vs →
      (∀ v ∈ vs, v.EachObject Tree.Conforms) → ∀ context : String,
      (w.statements (.str context) us).Alike Event.bare Eq (w.statements (.str context) vs) := by
  -- on the left value only: the right one has the same shape by similarity
  induction u using Json.induct_lookup with
  | arr us ih =>
    intro h
    refine ⟨fun v hv => (by cases hv), ?_⟩
    intro us' heq vs hsimilar hvs context
    obtain rfl := Json.arr.inj heq
    have hus := Json.eachObject_arr.mp h
    rw [statements_eq_forEach, statements_eq_forEach]
    refine Walk.alike_forEach ?_
    clear h heq
    -- item by item, with the hypothesis for the items of the list that is left
    induction hsimilar with
    | nil => exact .nil
    | @cons u v us vs huv _ ihrest =>
      refine .cons ?_ (ihrest (fun x hx => ih x (List.mem_cons_of_mem _ hx))
        (fun x hx => hvs x (List.mem_cons_of_mem _ hx)) fun x hx => hus x (List.mem_cons_of_mem _ hx))
      have hu := List.mem_cons_self (a := u) (l := us)
      exact ((ih u hu (hus u hu)).1 v huv (hvs v (List.mem_cons_self ..)) context).1
  | obj f ih =>
    intro hf
    have hbody := (ih "body" (hf.lookup "body")).1
    have hstatements := (ih "statements" (hf.lookup "statements")).2
    have hnode : ∀ {g : Fields}, (Json.obj g).EachObject Tree.Conforms →
        View.of w.kinds f = View.of w.kinds g → Node.Similar (lookup "body" f) (lookup "body" g) →
        ∀ context : String, (w.statement (.str context) (.obj f)).Alike Event.bare Eq
          (w.statement (.str context) (.obj g)) := by
      intro g hg hview hsimilar
      refine statement_congr hf hg hview (innerBody_similar hf hg hsimilar ?_ ?_)
      · exact fun context => (hbody _ hsimilar (hg.lookup "body") context).1
      · exact fun context => (hbody _ hsimilar (hg.lookup "body") context).2
    refine ⟨fun v hv hconforms context => ?_, fun _ h => by cases h⟩
    cases hv with
    | @node _ g view body left right =>
      refine ⟨hnode hconforms (view _) body context, ?_⟩
      rw [tree_obj, tree_obj, left, right]
      show (w.noStatements _).Alike _ _ (w.noStatements _)
      rw [noStatements_congr (view _)]
      exact Walk.alike_refl _
    | @listed _ g us vs view body left right items =>
      refine ⟨hnode hconforms (view _) body context, ?_⟩
      rw [tree_obj, tree_obj, left, right]
      refine hstatements us left vs items ?_ context
      have hvs := hconforms.lookup "statements"
      rw [right] at hvs
      exact Json.eachObject_arr.mp hvs
  | _ => exact fun _ => ⟨fun v hv _ _ => by cases hv <;> exact ⟨Walk.alike_refl _, Walk.alike_refl _⟩,
      fun _ h => by cases h⟩

/-- **Lists of similar statements are walked alike.** -/
theorem statements_similar {us vs : List Json} (h : List.Forall₂ Node.Similar us vs)
    (hus : ∀ u ∈ us, u.EachObject Tree.Conforms) (hvs : ∀ v ∈ vs, v.EachObject Tree.Conforms)
    (context : String) :
    (w.statements (.str context) us).Alike Event.bare Eq (w.statements (.str context) vs) :=
  (walk_similar w (.arr us) (Json.eachObject_arr.mpr hus)).2 us rfl vs h hvs context

end Walker

end DeclCatalogue
