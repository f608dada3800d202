import DeclCatalogue.Proofs.Tree.Result
import DeclCatalogue.Proofs.Tree.Schema
import DeclCatalogue.Proofs.Walk.Similar

/-!
# Results that agree

Two results of building agree if both are faults, or both are values that are related. `Agree` goes
through the same ways of putting results together as building itself.

Nodes that are built from fields are similar if their fields agree one by one in what is seen of
them: `Shown` says of a field what that is, and `similar_flagged` concludes from it.
-/

namespace DeclCatalogue.Tree

open Json (lookup)

variable {α β γ δ : Type}

/-! ## Results -/

/-- Both results are faults, or related values. -/
inductive Agree (R : α → β → Prop) : Decoded α → Decoded β → Prop where
  | ok {a : α} {b : β} (h : R a b) : Agree R (.ok a) (.ok b)
  | error {f g : DecodeFault} : Agree R (.error f) (.error g)

/-- Both results are faults, or both are values. -/
abbrev SucceedAlike : Decoded α → Decoded β → Prop :=
  Agree fun _ _ => True

variable {R R' : α → β → Prop} {S : γ → δ → Prop}

theorem agree_refl (x : Decoded α) : Agree Eq x x := by
  cases x with
  | ok a => exact .ok rfl
  | error fault => exact .error

/-- A result agrees with itself in whatever every value has in common with itself. -/
theorem agree_same {Q : α → α → Prop} (h : ∀ a, Q a a) (x : Decoded α) : Agree Q x x := by
  cases x with
  | ok a => exact .ok (h a)
  | error fault => exact .error

theorem Agree.mono {x : Decoded α} {y : Decoded β} (h : Agree R x y)
    (hR : ∀ a b, R a b → R' a b) : Agree R' x y := by
  cases h with
  | ok h => exact .ok (hR _ _ h)
  | error => exact .error

theorem Agree.succeed {x : Decoded α} {y : Decoded β} (h : Agree R x y) : SucceedAlike x y :=
  h.mono fun _ _ _ => trivial

theorem Agree.bind {x : Decoded α} {y : Decoded β} {f : α → Decoded γ} {g : β → Decoded δ}
    (h : Agree R x y) (hnext : ∀ a b, R a b → Agree S (f a) (g b)) :
    Agree S (x >>= f) (y >>= g) := by
  cases h with
  | ok h => exact hnext _ _ h
  | error => exact .error

theorem Agree.map {x : Decoded α} {y : Decoded β} {f : α → γ} {g : β → δ} (h : Agree R x y)
    (hf : ∀ a b, R a b → S (f a) (g b)) : Agree S (x.map f) (y.map g) := by
  cases h with
  | ok h => exact .ok (hf _ _ h)
  | error => exact .error

/-- The results for two lists that agree item by item. -/
theorem agree_decodeEach {f : α → Decoded γ} {g : β → Decoded δ} {xs : List α} {ys : List β}
    (h : List.Forall₂ (fun x y => Agree S (f x) (g y)) xs ys) :
    Agree (List.Forall₂ S) (decodeEach f xs) (decodeEach g ys) := by
  induction h with
  | nil => exact .ok .nil
  | cons hxy _ ih =>
    refine hxy.bind fun a b hab => ?_
    exact ih.bind fun as bs hrest => .ok (.cons hab hrest)

/-! ## Fields -/

/-- What is seen of the value of a field. -/
def Shown (key : String) (a b : Json) : Prop :=
  match key with
  | "name" => Node.identifierText a = Node.identifierText b
  | "type" => a.field "typeName" = b.field "typeName"
  | "expression" => Node.entityName a = Node.entityName b
  | "modifiers" | "moduleSpecifier" | "importClause" => a = b
  | "declarationList" =>
    (View.itemsOf (a.field "declarations")).map VariableView.of =
      (View.itemsOf (b.field "declarations")).map VariableView.of
  | "body" => Node.Similar a b
  | "statements" => a = .null ∧ b = .null ∨
    ∃ us vs, a = .arr us ∧ b = .arr vs ∧ List.Forall₂ Node.Similar us vs
  | _ => True

theorem shown_null (key : String) : Shown key .null .null := by
  unfold Shown
  split
  · rfl
  · rfl
  · rfl
  · rfl
  · rfl
  · rfl
  · rfl
  · exact .null
  · exact .inl ⟨rfl, rfl⟩
  · trivial

/-- Two nodes of one kind and with the same flags show the same, if their fields do. -/
theorem view_congr (kinds : KindTable) {f g : Fields}
    (hkind : lookup "kind" f = lookup "kind" g) (hflags : lookup "flags" f = lookup "flags" g)
    (h : ∀ key, Shown key (lookup key f) (lookup key g)) : View.of kinds f = View.of kinds g := by
  have hname : Node.identifierText (lookup "name" f) = Node.identifierText (lookup "name" g) :=
    h "name"
  have htype : (lookup "type" f).field "typeName" = (lookup "type" g).field "typeName" := h "type"
  have hspecifier : lookup "moduleSpecifier" f = lookup "moduleSpecifier" g := h "moduleSpecifier"
  have hmodifiers : lookup "modifiers" f = lookup "modifiers" g := h "modifiers"
  have hdeclarations : (View.itemsOf ((lookup "declarationList" f).field "declarations")).map
      VariableView.of = (View.itemsOf ((lookup "declarationList" g).field "declarations")).map
      VariableView.of := h "declarationList"
  have hexpression : Node.entityName (lookup "expression" f) =
      Node.entityName (lookup "expression" g) := h "expression"
  have hclause : lookup "importClause" f = lookup "importClause" g := h "importClause"
  have hkindOf : View.kindOf kinds (.obj f) = View.kindOf kinds (.obj g) := by
    unfold View.kindOf
    rw [KindTable.kindName, KindTable.kindName, hkind]
  have hresolved : Node.resolvedName? f = Node.resolvedName? g := by
    unfold Node.resolvedName? Node.declaredName?
    rw [hname, htype, hspecifier]
  unfold View.of Node.ownName? Node.fullName?
  rw [hkind, hkindOf, hflags, hname, hresolved, hmodifiers, hdeclarations, hexpression, hclause]

/-- Nodes that show the same are similar. -/
theorem similar_of_shown {f g : Fields} (hkind : lookup "kind" f = lookup "kind" g)
    (hflags : lookup "flags" f = lookup "flags" g)
    (h : ∀ key, Shown key (lookup key f) (lookup key g)) : Node.Similar (.obj f) (.obj g) := by
  have hview := fun kinds => view_congr kinds hkind hflags h
  rcases h "statements" with ⟨hleft, hright⟩ | ⟨us, vs, hleft, hright, hitems⟩
  · exact .node hview (h "body") hleft hright
  · exact .listed hview (h "body") hleft hright hitems

/-- Two lists of fields agree: field by field they have the same name, and the same is seen of their
values. -/
def FieldsAgree : List (String × Option Json) → List (String × Option Json) → Prop
  | [], [] => True
  | (key, a) :: fs, (other, b) :: gs =>
    (key = other ∧ Shown key (a.getD .null) (b.getD .null)) ∧ FieldsAgree fs gs
  | _, _ => False

/-- A field that is not among those of a node is missing. -/
theorem lookup_present_of_not_mem {key : String} {fields : List (String × Option Json)}
    (h : key ∉ fields.map Prod.fst) : lookup key (present fields) = .null := by
  rcases Json.lookup_eq_null_or_mem key (present fields) with hnull | hmem
  · exact hnull
  · exact absurd (List.mem_map.mpr ⟨_, mem_present.mp hmem, rfl⟩) h

theorem lookup_present_cons (key name : String) (value : Option Json)
    (rest : List (String × Option Json)) (hname : name ∉ rest.map Prod.fst) :
    lookup key (present ((name, value) :: rest)) =
      if name = key then value.getD .null else lookup key (present rest) := by
  have hmissing := lookup_present_of_not_mem hname
  cases value with
  | none =>
    have hpresent : present ((name, none) :: rest) = present rest := rfl
    rw [hpresent]
    split
    next heq => rw [← heq, hmissing]; rfl
    next => rfl
  | some v =>
    have hpresent : present ((name, some v) :: rest) = (name, v) :: present rest := rfl
    rw [hpresent, Json.lookup_cons]
    rfl

/-- A field of a node whose fields have different names. -/
theorem lookup_present_of_mem {key : String} {value : Option Json}
    {fields : List (String × Option Json)} (hkeys : (fields.map Prod.fst).Nodup)
    (h : (key, value) ∈ fields) : lookup key (present fields) = value.getD .null := by
  induction fields with
  | nil => cases h
  | cons f rest ih =>
    obtain ⟨name, other⟩ := f
    obtain ⟨hfirst, hrest⟩ := List.nodup_cons.mp hkeys
    rw [lookup_present_cons key name other rest hfirst]
    rcases List.mem_cons.mp h with hhere | hlater
    · obtain ⟨rfl, rfl⟩ := Prod.mk.inj hhere
      exact if_pos rfl
    · have hkey : key ∈ rest.map Prod.fst := List.mem_map.mpr ⟨_, hlater, rfl⟩
      have hne : name ≠ key := fun heq => hfirst (heq ▸ hkey)
      rw [if_neg hne]
      exact ih hrest hlater

/-- What is seen of the fields that have a value. -/
theorem FieldsAgree.shown {fs gs : List (String × Option Json)} (h : FieldsAgree fs gs)
    (hkeys : (fs.map Prod.fst).Nodup) :
    fs.map Prod.fst = gs.map Prod.fst ∧
      ∀ key, Shown key (lookup key (present fs)) (lookup key (present gs)) := by
  induction fs generalizing gs with
  | nil =>
    cases gs with
    | nil => exact ⟨rfl, shown_null⟩
    | cons g gs => exact h.elim
  | cons f fs ih =>
    cases gs with
    | nil => exact h.elim
    | cons g gs =>
      obtain ⟨name, a⟩ := f
      obtain ⟨other, b⟩ := g
      obtain ⟨⟨rfl, hshown⟩, hrest⟩ := h
      have hnodup := List.nodup_cons.mp hkeys
      obtain ⟨hsame, hall⟩ := ih hrest hnodup.2
      refine ⟨congrArg (name :: ·) hsame, fun key => ?_⟩
      rw [lookup_present_cons key name a fs hnodup.1,
        lookup_present_cons key name b gs (hsame ▸ hnodup.1)]
      split
      next heq => exact heq ▸ hshown
      next => exact hall key

/-- **Nodes whose fields agree are similar,** if they are of one kind and have the same flags. -/
theorem similar_flagged {kind : SyntaxKind} {head : CstHead} {flags : Nat}
    {fs gs : List (String × Option Json)} (h : FieldsAgree fs gs)
    (hkeys : (fs.map Prod.fst).Nodup) :
    Node.Similar (flagged kind head flags fs) (flagged kind head flags gs) := by
  obtain ⟨-, hpresent⟩ := h.shown hkeys
  -- four fields come first, and the same is seen of each because they are equal
  have hshown : ∀ key, Shown key
      (lookup key ([("kind", .int kind.code), ("pos", .int head.start), ("end", .int head.stop),
        ("flags", .int flags)] ++ present fs))
      (lookup key ([("kind", .int kind.code), ("pos", .int head.start), ("end", .int head.stop),
        ("flags", .int flags)] ++ present gs)) := by
    intro key
    simp only [List.cons_append, List.nil_append, Json.lookup_cons]
    split
    next heq => exact heq ▸ trivial
    split
    next heq => exact heq ▸ trivial
    split
    next heq => exact heq ▸ trivial
    split
    next heq => exact heq ▸ trivial
    exact hpresent key
  exact similar_of_shown rfl rfl hshown

/-- Nodes without flags whose fields agree are similar. -/
theorem similar_make {kind : SyntaxKind} {head : CstHead} {fs gs : List (String × Option Json)}
    (h : FieldsAgree fs gs) (hkeys : (fs.map Prod.fst).Nodup) :
    Node.Similar (make kind head fs) (make kind head gs) :=
  similar_flagged h hkeys

/-- A node that keeps to the schema is similar to itself, and so is every node that it lists. -/
private theorem similar_self (v : Json) : v.EachObject Conforms →
    ((∃ fields, v = .obj fields) → Node.Similar v v) ∧
    ∀ vs, v = .arr vs → ∀ u ∈ vs, (∃ fields, u = .obj fields) → Node.Similar u u := by
  -- bodies and lists of statements are all that similarity goes down into
  induction v using Json.induct_lookup with
  | obj fields ih =>
    intro h
    obtain ⟨⟨kind, hfields⟩, -⟩ := Json.eachObject_obj.mp h
    have hbodyForm : fieldForm kind "body" = some (.node (bodyKinds kind)) := rfl
    have hlistForm : fieldForm kind "statements" = some (.nodes SyntaxKind.all) := rfl
    refine ⟨fun _ => ?_, fun _ h => by cases h⟩
    have hbody : Node.Similar (lookup "body" fields) (lookup "body" fields) := by
      rcases hfields.lookup hbodyForm with hnull | ⟨body, hbody, -⟩
      · rw [hnull]
        exact .null
      · exact (ih "body" (h.lookup "body")).1 ⟨body, hbody⟩
    rcases hfields.lookup hlistForm with hnull | ⟨vs, hvs, hnodes⟩
    · exact .node (fun _ => rfl) hbody hnull hnull
    · refine .listed (fun _ => rfl) hbody hvs hvs (List.forall₂_same.mpr fun v hv => ?_)
      obtain ⟨item, hitem, -⟩ := hnodes v hv
      exact (ih "statements" (h.lookup "statements")).2 vs hvs v hv ⟨item, hitem⟩
  | arr vs ih =>
    intro h
    refine ⟨fun ⟨_, h⟩ => (by cases h), fun us heq u hu hnode => ?_⟩
    obtain rfl := Json.arr.inj heq
    exact (ih u hu (Json.eachObject_arr.mp h u hu)).1 hnode
  | _ => exact fun _ => ⟨fun ⟨_, h⟩ => (by cases h), fun _ h => by cases h⟩

/-- A node that is read in the same way twice. -/
theorem agree_similar {x : Decoded Json} (h : Yields x AnyNode) : Agree Node.Similar x x := by
  cases x with
  | error fault => exact .error
  | ok v =>
    obtain ⟨⟨fields, hfields, -⟩, hv⟩ := h v rfl
    exact .ok ((similar_self v hv).1 ⟨fields, hfields⟩)

end DeclCatalogue.Tree
