import DeclCatalogue.Proofs.Node.View
import DeclCatalogue.Proofs.Record.Make
import DeclCatalogue.Proofs.Walk.Collect
import DeclCatalogue.Proofs.Walk.Congruence

/-!
# Walking by the view of a node

What a walk does with a statement that keeps to the schema is a function of the statement's view.
The functions `View.declare`, `View.declareVariables`, `View.export`, `View.import` and `View.enter`
are the collectors and the entry of a module written over views: nothing in them can go wrong but
that a name is missing, or that a placeholder is none that a record can have. `collect_view` and
`statement_view` say that the collectors and the walk are alike to them for an observer of
`Event.bare`, and everything that is said of walks of built trees is said through these two.
-/

namespace DeclCatalogue

open Json (lookup)

/-! ## What is done with a view -/

/-- The fault of a node without a usable name, of which only the kind is kept. -/
def Fault.nameless (kind : Json) : Fault :=
  .unresolvableName (.obj [("kind", kind)])

/-- The record of a variable; none for one without a name or a type to refer to. -/
def VariableView.record? (rootContext : String) (v : VariableView) : Option VariableRecord :=
  match v.name, v.type with
  | some name, some (.plain type) => some ⟨some rootContext, name, type, none⟩
  | some name, some (.qualified type container) =>
    some ⟨none, name, type, container.map fun c => c.val⟩
  | _, _ => none

/-- Without a name or a type there is no record. -/
theorem VariableView.record?_eq_none (rootContext : String) {v : VariableView}
    (h : v.name = none ∨ v.type = none) : v.record? rootContext = none := by
  obtain ⟨name, type⟩ := v
  rcases h with h | h
  · subst h
    rfl
  · subst h
    cases name <;> rfl

/-- The name of a node that has to have one. -/
def NameView.resolve (v : NameView) : Walk Name :=
  match v.name with
  | none => Walk.fail (.nameless (Json.ofText? v.kind))
  | some name => pure name

namespace View

/-- Records a declaration. -/
def declare (v : View) (heading : Heading) (context : String) : Walk Unit := do
  let name ← NameView.resolve ⟨v.kind, v.resolved⟩
  let record : Declaration := ⟨context, heading.kind, name, v.exported, []⟩
  if v.exported then Walk.emit (.exported record (.str context))
  Walk.push (.declaration heading record (.str context))

/-- Records the variables of a statement. -/
def declareVariables (v : View) (rootContext context : String) : Walk Unit :=
  Walk.forEach (fun record => Walk.push (.variableRecord record (.str context)))
    (v.declarations.filterMap (VariableView.record? rootContext))

/-- Records a default export. -/
def «export» (v : View) (context : String) : Walk Unit := do
  let name ← NameView.resolve ⟨v.kind, v.expression⟩
  Walk.push (.exportRecord ⟨name, true⟩ (.str context))

/-- Records one imported name. -/
def importName (source : Name) (kind : ImportKind) (name : Name) : Walk Unit :=
  Walk.push (.importRecord ⟨kind, name, source⟩)

/-- Records the names of a pair of bindings. -/
def importBindings (source : Name) (bindings : BindingsView) : Walk Unit :=
  match bindings.name with
  | some name => importName source .default name
  | none => Walk.forEach (fun (element : NameView) => do
      let name ← element.resolve
      importName source .explicit name) bindings.elements

/-- Records the names that a clause declares. -/
def importClause (source : Name) (clause : ClauseView) : Walk Unit := do
  match clause.name with
  | some name => importName source .default name
  | none => pure ()
  match clause.bindings with
  | some bindings => importBindings source bindings
  | none => pure ()

/-- Records an import. -/
def «import» (v : View) (w : Walker) : Walk Unit := do
  let source ← NameView.resolve ⟨v.kind, v.resolved⟩
  match v.clause with
  | none => do
    let count ← Walk.token
    Walker.pushImport .default (.str (w.placeholder count)) (.str source)
  | some clause => importClause source clause

/-- Records a statement by the step of its kind. -/
def collect (v : View) (w : Walker) (collector : Collector) (context : String) : Walk Unit :=
  match collector with
  | .declaration heading => v.declare heading context
  | .variableStatement => v.declareVariables w.rootContext context
  | .exportAssignment => v.export context
  | .importDeclaration => v.import w

/-- Whether a module is a namespace. -/
def isNamespace (v : View) (w : Walker) : Bool :=
  decide (commonBits v.flags w.namespaceFlags ≠ 0)

/-- The context of the body of a module. -/
def innerContext (v : View) (w : Walker) (name : Name) : String :=
  if v.isNamespace w then w.namespacePrefix ++ name.val else name.val

/-- Enters a module. -/
def enter (v : View) (w : Walker) : Walk String :=
  match v.name with
  | none => Walk.fail (.nameless v.tag)
  | some name =>
    if v.isNamespace w then do
      Walk.push (.namespaceName (.str name))
      pure (v.innerContext w name)
    else pure (v.innerContext w name)

/-- Walks a statement, given the walk of its body under a context. -/
def statement (v : View) (w : Walker) (body : String → Walk Unit) (context : String) : Walk Unit :=
  match v.kind.bind StatementKind.ofName? with
  | none => pure ()
  | some (.recorded collector) => v.collect w collector context
  | some .module => do
    let inner ← v.enter w
    body inner

end View

/-! ## Steps without effect -/

theorem NameView.resolve_none (kind : Option String) :
    NameView.resolve ⟨kind, none⟩ = Walk.fail (.nameless (Json.ofText? kind)) := rfl

theorem NameView.resolve_some (kind : Option String) (name : Name) :
    NameView.resolve ⟨kind, some name⟩ = pure name := rfl

namespace Walker

open Node (nameText strip ownName? fullName? resolvedName?)

variable {w : Walker} {fields out : Fields}

theorem strippedFields_eq (hstrip : strip w.kinds (.obj fields) = .ok (.obj out)) :
    w.strippedFields (.obj fields) = pure out := by
  unfold strippedFields
  rw [hstrip, Walk.ofExcept_ok, pure_bind]

/-- Giving up for want of a name. -/
theorem nameless_alike {α β : Type} {R : α → β → Prop}
    (hstrip : strip w.kinds (.obj fields) = .ok (.obj out)) :
    (Walk.fail (.unresolvableName (.obj out)) : Walk α).Alike Event.bare R
      (Walk.fail (.nameless (Json.ofText? (View.kindOf w.kinds (.obj fields))))) := by
  refine Walk.alike_fail ?_
  show Fault.unresolvableName _ = Fault.unresolvableName _
  have hkind : (Json.obj out).field "kind" = Json.ofText? (View.kindOf w.kinds (.obj fields)) :=
    Node.kind_view hstrip
  rw [hkind]
  rfl

/-- Resolving the name of a stripped node is looking at the view. -/
theorem resolveName_view (h : (Json.obj fields).EachObject Tree.Conforms)
    (hstrip : strip w.kinds (.obj fields) = .ok (.obj out)) :
    (resolveName out).Alike Event.bare (fun value name => value = nameText name)
      (NameView.resolve ⟨View.kindOf w.kinds (.obj fields), resolvedName? fields⟩) := by
  unfold resolveName
  rw [Node.declaredName_view h hstrip]
  cases resolvedName? fields with
  | none => exact Walk.Alike.unlogged (nameless_alike hstrip)
  | some name => exact Walk.alike_pure rfl

/-! ## Declarations -/

theorem collectDeclaration_view (h : (Json.obj fields).EachObject Tree.Conforms) (heading : Heading)
    (context : String) :
    (w.collectDeclaration heading (.obj fields) (.str context)).Alike Event.bare Eq
      ((View.of w.kinds fields).declare heading context) := by
  obtain ⟨out, hstrip⟩ := Node.strip_conforming w.kinds h
  unfold collectDeclaration shapeDeclaration View.declare
  rw [strippedFields_eq hstrip, pure_bind, bind_assoc]
  refine (resolveName_view h hstrip).bind fun value name heq => ?_
  subst heq
  obtain ⟨found, hfound, hexported⟩ :=
    Node.modifiers_view (.obj [("text", nameText name)]) h hstrip
  -- a record with a name in it passes its check
  have hmake : Declaration.make (.str context) heading.kind (nameText name) (found.contains .exported)
      (Json.setField "name" (.obj [("text", nameText name)]) out) = .valid
        ⟨context, heading.kind, name, found.contains .exported,
          Json.setField "name" (.obj [("text", nameText name)]) out⟩ :=
    Declaration.make_eq_valid.mpr ⟨rfl, rfl, rfl, rfl, rfl⟩
  dsimp only
  rw [hfound, Walk.ofExcept_ok, pure_bind, hmake, Walk.ofChecked_valid, pure_bind, hexported]
  split
  · rw [bind_assoc]
    refine Walk.Alike.bind (Walk.alike_emit ?_) fun _ _ _ => ?_
    · rfl
    · rw [pure_bind]
      exact Walk.alike_push rfl
  · rw [pure_bind]
    exact Walk.alike_push rfl

/-! ## Variables -/

/-- A value that is missing or a node. -/
def MaybeNode (kinds : List SyntaxKind) (v : Json) : Prop :=
  v = .null ∨ Tree.IsNode kinds v

theorem truthy_of_kind {fields : Fields} {kind : Json} (hkind : lookup "kind" fields = kind)
    (hne : kind ≠ .null) : (Json.obj fields).truthy = true :=
  Json.truthy_of_lookup "kind" (hkind ▸ hne)

/-- A node counts as present. -/
theorem MaybeNode.truthy_iff {kinds : List SyntaxKind} {v : Json} (hv : MaybeNode kinds v) :
    v.truthy = true ↔ v ≠ .null := by
  rcases hv with rfl | ⟨fields, rfl, kind, -, hkind⟩
  · exact ⟨fun h => (by cases h), fun h => absurd rfl h⟩
  · exact ⟨fun _ h => (by cases h), fun _ => truthy_of_kind hkind (by simp)⟩

/-- Stripped, it is missing or an object, and as present as before. -/
theorem MaybeNode.strip {v u : Json} {kinds : List SyntaxKind} (hv : MaybeNode kinds v)
    (hstrip : Node.strip w.kinds v = .ok u) :
    (u = .null ∨ ∃ fields, u = .obj fields) ∧ u.truthy = v.truthy := by
  rcases hv with rfl | ⟨fields, rfl, kind, -, hkind⟩
  · obtain rfl := Except.ok.inj hstrip
    exact ⟨.inl rfl, rfl⟩
  · obtain ⟨_, out, -, -, rfl⟩ := Node.strip_obj_ok hstrip
    refine ⟨.inr ⟨out, rfl⟩, ?_⟩
    obtain ⟨name, hname, hlookup⟩ := Node.strip_kind hstrip
    rw [KindTable.kindName, hkind] at hname
    obtain rfl := Except.ok.inj hname
    rw [truthy_of_kind hkind (by simp), truthy_of_kind hlookup (by simp [Json.ofText?])]

/-- The fields of a node that keeps to the schema, one at a time: missing or of its form. -/
theorem node_field (key : String) {kinds : List SyntaxKind}
    (hform : ∀ kind, Tree.fieldForm kind key = some (.node kinds)) {v : Json}
    (h : v.EachObject Tree.Conforms) : MaybeNode kinds (v.field key) := by
  cases v with
  | obj fields =>
    obtain ⟨⟨kind, hfields⟩, -⟩ := Json.eachObject_obj.mp h
    exact hfields.lookup (hform kind)
  | _ => exact .inl rfl

/-- The name of a node is missing or a node. -/
theorem name_field {fields : Fields} (h : (Json.obj fields).EachObject Tree.Conforms) :
    ∃ kinds, MaybeNode kinds (lookup "name" fields) := by
  obtain ⟨⟨kind, hfields⟩, -⟩ := Json.eachObject_obj.mp h
  have hform : Tree.fieldForm kind "name" = some (.node (Tree.nameKinds kind)) := rfl
  exact ⟨_, hfields.lookup hform⟩

/-- An identifier has a name. -/
theorem identifier_view {v : Json} (h : v.EachObject Tree.Conforms)
    (hv : Tree.IsNode [.identifier] v) : ∃ name, Node.identifierText v = some (nameText name) := by
  obtain ⟨fields, rfl, kind, hkind, hlookup⟩ := hv
  obtain ⟨⟨kind', hfields⟩, -⟩ := Json.eachObject_obj.mp h
  obtain rfl := hfields.kind_unique hlookup
  rw [List.mem_singleton.mp hkind] at hfields
  have hform : Tree.fieldForm .identifier "text" = some .name := rfl
  obtain ⟨s, hs, hformed, htext⟩ := hfields.lookup_required hform (by decide)
  refine ⟨⟨s, hs, hformed⟩, ?_⟩
  have hpresent : (lookup "text" fields).present? = some (.str s) := by
    rw [htext]
    unfold Json.present?
    rw [if_pos (by simpa [Json.truthy] using hs)]
  simp only [Node.identifierText, hpresent]
  rfl

/-- The name that a type refers to is an identifier, or has two sides of which the right one is an
identifier. -/
theorem typeName_view {v : Json} (h : v.EachObject Tree.Conforms)
    (hv : Tree.IsNode [.identifier, .qualifiedName] v) :
    (∃ name, fullName? v = some name) ∨
      (v.field "left" ≠ .null ∧ v.field "right" ≠ .null) := by
  obtain ⟨fields, rfl, kind, hkind, hlookup⟩ := hv
  obtain ⟨⟨kind', hfields⟩, -⟩ := Json.eachObject_obj.mp h
  obtain rfl := hfields.kind_unique hlookup
  simp only [List.mem_cons, List.not_mem_nil, or_false] at hkind
  rcases hkind with rfl | rfl
  · left
    obtain ⟨name, hname⟩ := identifier_view h ⟨fields, rfl, _, List.mem_cons_self .., hlookup⟩
    refine ⟨name, ?_⟩
    unfold fullName?
    rw [Node.entityName_obj, hname]
    exact Node.asName?_nameText name
  · right
    exact ⟨hfields.required _ (by decide), hfields.required _ (by decide)⟩

theorem name_check (name : Name) : Checked.name (nameText name) = .valid name :=
  Checked.name_eq_valid.mpr rfl

/-- A variable is made of names. -/
theorem variable_make (context : Option String) (name value : Name) (container : Option Name) :
    VariableRecord.make context (nameText name) (some (nameText value)) (container.map nameText) =
      .valid ⟨context, name, value, container.map fun c => c.val⟩ := by
  unfold VariableRecord.make
  rw [name_check, Option.getD_some, name_check]
  cases container <;> rfl

/-- What is checked of a variable with a name and a type to refer to is its record. -/
theorem variableRecord_view {type reference : Json}
    (h : (type.field "typeName").EachObject Tree.Conforms)
    (hnode : Tree.IsNode [.identifier, .qualifiedName] (type.field "typeName"))
    (hstrip : strip w.kinds (type.field "typeName") = .ok reference) (root : String)
    (name : Name) : ∃ record,
      VariableRecord.check root (nameText name) reference = .valid record ∧
      VariableView.record? root ⟨some name, TypeView.of type⟩ = some record := by
  unfold VariableRecord.check Node.isQualified
  have hleft := Node.strip_field hstrip (Node.isBookkeeping_left) (by decide)
  have hright := Node.strip_field hstrip (Node.isBookkeeping_right) (by decide)
  have hleftNode := node_field "left" (fun _ => rfl) h
  have hrightNode := node_field "right" (fun _ => rfl) h
  rw [(hleftNode.strip hleft).2, (hrightNode.strip hright).2]
  -- stripped sides are there exactly if the sides are, so both splits are on the same condition
  unfold TypeView.of
  dsimp only
  by_cases hboth : (((type.field "typeName").field "left").truthy &&
      ((type.field "typeName").field "right").truthy) = true
  · rw [if_pos hboth, if_pos hboth]
    have hrightNull := hrightNode.truthy_iff.mp (Bool.and_eq_true_iff.mp hboth).2
    obtain ⟨value, hvalue⟩ := identifier_view (Node.eachObject_field h "right")
      (hrightNode.resolve_left hrightNull)
    have hown : ownName? ((type.field "typeName").field "right") = some value := by
      unfold ownName?
      rw [hvalue]
      exact Node.asName?_nameText value
    rw [Node.identifierText_view (Node.eachObject_field h "right") hright,
      Node.entityName_view (Node.eachObject_field h "left") hleft, hown]
    exact ⟨_, variable_make none name value _, rfl⟩
  · rw [if_neg hboth, if_neg hboth]
    -- a name without two sides has to be an identifier
    rcases typeName_view h hnode with ⟨value, hvalue⟩ | ⟨hleftNull, hrightNull⟩
    · rw [Node.entityName_view h hstrip, hvalue]
      exact ⟨_, variable_make (some root) name value none, rfl⟩
    · refine absurd (Bool.and_eq_true_iff.mpr ⟨?_, ?_⟩) hboth
      · exact hleftNode.truthy_iff.mpr hleftNull
      · exact hrightNode.truthy_iff.mpr hrightNull

theorem shapeVariable_view {d d' : Json} (h : d.EachObject Tree.Conforms)
    (hd : Tree.IsNode [.variableDeclaration] d) (hstrip : strip w.kinds d = .ok d')
    (context : Json) :
    (w.shapeVariable context d').Alike Event.bare Eq
      (pure ((VariableView.of d).record? w.rootContext)) := by
  obtain ⟨fields, rfl, -⟩ := hd
  obtain ⟨_, out, -, -, rfl⟩ := Node.strip_obj_ok hstrip
  -- the parts of the declaration, stripped and as they were
  have htype : strip w.kinds (lookup "type" fields) = .ok (lookup "type" out) :=
    Node.strip_fields hstrip (by decide) (by decide)
  have htypeName : strip w.kinds ((lookup "type" fields).field "typeName") =
      .ok (Node.typeName (.obj out)) :=
    Node.strip_field htype (by decide) (by decide)
  have hname : strip w.kinds (lookup "name" fields) = .ok (lookup "name" out) :=
    Node.strip_fields hstrip (by decide) (by decide)
  have htypeNode := (node_field "type" (fun _ => rfl) h).strip htype
  have hreference := node_field "typeName" (fun _ => rfl) (h.lookup "type")
  have htext : Node.identifierText ((Json.obj out).field "name") =
      (ownName? (lookup "name" fields)).map nameText :=
    Node.identifierText_view (h.lookup "name") hname
  by_cases hnull : (lookup "type" fields).field "typeName" = .null
  · -- no type to refer to: there is no record whatever the name is
    have hmissing : (Node.typeName (.obj out)).truthy = false := by
      rw [(hreference.strip htypeName).2, hnull]
      rfl
    have hnone : TypeView.of (lookup "type" fields) = none := by
      unfold TypeView.of
      rw [hnull]
      rfl
    rw [shapeVariable_untyped ⟨out, rfl⟩ htypeNode.1 hmissing,
      VariableView.record?_eq_none w.rootContext (.inr hnone)]
    exact Walk.Alike.unlogged (Walk.alike_refl _)
  · have hthere : (Node.typeName (.obj out)).truthy = true := by
      rw [(hreference.strip htypeName).2]
      exact hreference.truthy_iff.mpr hnull
    cases hown : ownName? (lookup "name" fields) with
    | none =>
      -- a type to refer to, but no name for the variable
      obtain ⟨kinds, hnameNode⟩ := name_field h
      rw [hown] at htext
      rw [shapeVariable_unnamed hthere (hnameNode.strip hname).1 htext,
        VariableView.record?_eq_none w.rootContext (.inl hown)]
      exact Walk.Alike.unlogged (Walk.alike_refl _)
    | some name =>
      rw [hown] at htext
      obtain ⟨record, hchecked, hrecord⟩ := variableRecord_view
        (Node.eachObject_field (h.lookup "type") "typeName") (hreference.resolve_left hnull)
        htypeName w.rootContext name
      have hview : (VariableView.of (.obj fields)).record? w.rootContext = some record := by
        rw [← hrecord]
        show VariableView.record? _ ⟨ownName? (lookup "name" fields), _⟩ = _
        rw [hown]
        rfl
      have hobj := (hreference.strip htypeName).1.resolve_left fun h => by
        rw [h] at hthere
        cases hthere
      rw [shapeVariable_named hthere hobj htext, hview, hchecked, Walk.ofChecked_valid, map_pure]
      exact Walk.alike_refl _

theorem shapeVariables_view {ds ds' : List Json}
    (h : ∀ d ∈ ds, d.EachObject Tree.Conforms ∧ Tree.IsNode [.variableDeclaration] d)
    (hstrip : List.Forall₂ (fun d d' => strip w.kinds d = .ok d') ds ds') (context : Json) :
    (w.shapeVariables context ds').Alike Event.bare Eq
      (pure ((ds.map VariableView.of).filterMap (VariableView.record? w.rootContext))) := by
  induction hstrip with
  | nil => exact Walk.alike_refl _
  | @cons d d' ds ds' hd _ ih =>
    obtain ⟨hconforms, hnode⟩ := h d (List.mem_cons_self ..)
    have hrest := ih fun e he => h e (List.mem_cons_of_mem _ he)
    have hpure : (pure (((d :: ds).map VariableView.of).filterMap
        (VariableView.record? w.rootContext)) : Walk (List VariableRecord)) = (do
          let record ← pure ((VariableView.of d).record? w.rootContext)
          let records ← pure ((ds.map VariableView.of).filterMap
            (VariableView.record? w.rootContext))
          pure (record.toList ++ records)) := by
      rw [pure_bind, pure_bind, List.map_cons, List.filterMap_cons]
      cases (VariableView.of d).record? w.rootContext <;> rfl
    -- records are shaped one by one, and those that are there are put in front of the rest
    rw [shapeVariables, hpure]
    refine (shapeVariable_view hconforms hnode hd context).bind fun record _ heq => ?_
    subst heq
    refine hrest.bind fun records _ heq => ?_
    subst heq
    exact Walk.alike_refl _

/-- A list of nodes that may be missing: the list, item by item, stripped and as it was. -/
theorem strip_nodes {kinds : List SyntaxKind} {v u : Json} (h : v.EachObject Tree.Conforms)
    (hv : v = .null ∨ (Tree.FieldForm.nodes kinds).Fits v) (hstrip : strip w.kinds v = .ok u) :
    Node.items u = .ok (View.itemsOf u) ∧
      List.Forall₂ (fun d d' => strip w.kinds d = .ok d') (View.itemsOf v) (View.itemsOf u) ∧
      ∀ d ∈ View.itemsOf v, d.EachObject Tree.Conforms ∧ Tree.IsNode kinds d := by
  have hlist : v = .null ∨ ∃ vs, v = .arr vs := hv.imp_right fun ⟨vs, hvs, _⟩ => ⟨vs, hvs⟩
  obtain ⟨hitems, hforall⟩ := Node.strip_list hlist hstrip
  refine ⟨hitems, hforall, fun d hd => ?_⟩
  rcases hv with rfl | ⟨vs, rfl, hkinds⟩
  · cases hd
  · exact ⟨Json.eachObject_arr.mp h d hd, hkinds d hd⟩

/-- The declarations of a list of variables. -/
theorem declarations_field {v : Json} (h : v.EachObject Tree.Conforms) :
    v.field "declarations" = .null ∨
      (Tree.FieldForm.nodes [.variableDeclaration]).Fits (v.field "declarations") := by
  cases v with
  | obj fields =>
    obtain ⟨⟨kind, hfields⟩, -⟩ := Json.eachObject_obj.mp h
    have hform : Tree.fieldForm kind "declarations" = some (.nodes [.variableDeclaration]) := rfl
    exact hfields.lookup hform
  | _ => exact .inl rfl

theorem collectVariables_view (h : (Json.obj fields).EachObject Tree.Conforms) (context : String) :
    (w.collectVariables (.obj fields) (.str context)).Alike Event.bare Eq
      ((View.of w.kinds fields).declareVariables w.rootContext context) := by
  obtain ⟨out, hstrip⟩ := Node.strip_conforming w.kinds h
  have hlist : strip w.kinds (lookup "declarationList" fields) =
      .ok (lookup "declarationList" out) := Node.strip_fields hstrip (by decide) (by decide)
  have hlistNode := (node_field "declarationList" (fun _ => rfl) h).strip hlist
  have hdeclarations : strip w.kinds ((lookup "declarationList" fields).field "declarations") =
      .ok ((lookup "declarationList" out).field "declarations") :=
    Node.strip_field hlist (by decide) (by decide)
  obtain ⟨hitems, hforall, hnodes⟩ :=
    strip_nodes (Node.eachObject_field (h.lookup "declarationList") "declarations")
      (declarations_field (h.lookup "declarationList")) hdeclarations
  have hlisted : (do Node.items (← Node.getPresent (lookup "declarationList" out) "declarations")) =
      Except.ok (View.itemsOf ((lookup "declarationList" out).field "declarations")) := by
    rw [getPresent_eq hlistNode.1]
    exact hitems
  unfold collectVariables View.declareVariables
  rw [strippedFields_eq hstrip, pure_bind, hlisted, Walk.ofExcept_ok, pure_bind]
  -- all records are shaped before the first one is pushed
  have hpure := (shapeVariables_view hnodes hforall (.str context)).bind
    (S := Eq) (f := fun records =>
      Walk.forEach (fun record => Walk.push (.variableRecord record (.str context))) records)
    (g := fun records =>
      Walk.forEach (fun record => Walk.push (.variableRecord record (.str context))) records)
    fun records _ heq => heq ▸ Walk.alike_refl _
  rw [pure_bind] at hpure
  exact hpure

/-! ## Exports -/

theorem collectExport_view (h : (Json.obj fields).EachObject Tree.Conforms) (context : String) :
    (w.collectExport (.obj fields) (.str context)).Alike Event.bare Eq
      ((View.of w.kinds fields).export context) := by
  obtain ⟨out, hstrip⟩ := Node.strip_conforming w.kinds h
  have hexpression : strip w.kinds (lookup "expression" fields) = .ok (lookup "expression" out) :=
    Node.strip_fields hstrip (by decide) (by decide)
  have hname := Node.entityName_view (h.lookup "expression") hexpression
  have hview : (View.of w.kinds fields).export context = (do
      let name ← NameView.resolve
        ⟨View.kindOf w.kinds (.obj fields), fullName? (lookup "expression" fields)⟩
      Walk.push (.exportRecord ⟨name, true⟩ (.str context))) := rfl
  unfold collectExport
  rw [strippedFields_eq hstrip, pure_bind, hname, hview]
  cases fullName? (lookup "expression" fields) with
  | none =>
    rw [NameView.resolve_none, Walk.fail_bind]
    exact Walk.Alike.unlogged (nameless_alike hstrip)
  | some name =>
    have hmake : ExportRecord.make (nameText name) true = .valid ⟨name, true⟩ := by
      unfold ExportRecord.make
      rw [name_check]
      rfl
    rw [Option.map_some, NameView.resolve_some, pure_bind]
    dsimp only
    rw [hmake, Walk.ofChecked_valid, pure_bind]
    exact Walk.alike_refl _

/-! ## Imports -/

theorem pushImport_view (kind : ImportKind) (name source : Name) :
    pushImport kind (nameText name) (nameText source) = View.importName source kind name := by
  have hmake : ImportRecord.make kind (nameText name) (nameText source) =
      .valid ⟨kind, name, source⟩ := by
    unfold ImportRecord.make
    rw [name_check, name_check]
    rfl
  unfold pushImport View.importName
  rw [hmake, Walk.ofChecked_valid, pure_bind]

/-- The elements of a pair of bindings. -/
theorem elements_field {fields : Fields} {kind : SyntaxKind} (h : Tree.ConformsTo kind fields)
    (hkind : kind ∈ [SyntaxKind.namespaceImport, .namedImports]) :
    ∃ kinds, lookup "elements" fields = .null ∨
      (Tree.FieldForm.nodes kinds).Fits (lookup "elements" fields) := by
  simp only [List.mem_cons, List.not_mem_nil, or_false] at hkind
  rcases hkind with rfl | rfl
  · have hform : Tree.fieldForm .namespaceImport "elements" = some (.nodes [.exportSpecifier]) := rfl
    exact ⟨_, h.lookup hform⟩
  · have hform : Tree.fieldForm .namedImports "elements" = some (.nodes [.importSpecifier]) := rfl
    exact ⟨_, h.lookup hform⟩

/-- Recording the imported names of a list. -/
theorem importElements_view (source : Name) {kinds : List SyntaxKind} {vs us : List Json}
    (h : ∀ v ∈ vs, v.EachObject Tree.Conforms ∧ Tree.IsNode kinds v)
    (hstrip : List.Forall₂ (fun v u => strip w.kinds v = .ok u) vs us) :
    (Walk.forEach (fun element => do
      let name ← resolveNameOf element
      pushImport .explicit name (nameText source)) us).Alike Event.bare Eq
      (Walk.forEach (fun (element : NameView) => do
        let name ← element.resolve
        View.importName source .explicit name) (vs.map (View.nameOf w.kinds))) := by
  refine Walk.alike_forEach ?_
  induction hstrip with
  | nil => exact .nil
  | @cons v u vs us hvu _ ih =>
    obtain ⟨hconforms, fields, rfl, -⟩ := h v (List.mem_cons_self ..)
    obtain ⟨_, out, -, -, rfl⟩ := Node.strip_obj_ok hvu
    refine .cons ?_ (ih fun e he => h e (List.mem_cons_of_mem _ he))
    refine (resolveName_view hconforms hvu).bind fun value name heq => ?_
    subst heq
    rw [pushImport_view]
    exact Walk.alike_refl _

theorem collectBindings_view {v u : Json} (source : Name) (h : v.EachObject Tree.Conforms)
    (hv : Tree.IsNode [.namespaceImport, .namedImports] v) (hstrip : strip w.kinds v = .ok u) :
    ∃ bindings, View.bindingsOf w.kinds v = some bindings ∧
      (collectBindings (nameText source) u).Alike Event.bare Eq
        (View.importBindings source bindings) := by
  obtain ⟨fields, rfl, kind, hkind, hlookup⟩ := hv
  obtain ⟨_, out, -, -, rfl⟩ := Node.strip_obj_ok hstrip
  have hname : strip w.kinds (lookup "name" fields) = .ok (lookup "name" out) :=
    Node.strip_fields hstrip (by decide) (by decide)
  have helements : strip w.kinds (lookup "elements" fields) = .ok (lookup "elements" out) :=
    Node.strip_fields hstrip (by decide) (by decide)
  obtain ⟨⟨kind', hfields⟩, -⟩ := Json.eachObject_obj.mp h
  obtain rfl := hfields.kind_unique hlookup
  refine ⟨_, rfl, ?_⟩
  unfold collectBindings View.importBindings
  rw [Node.get_obj, Walk.ofExcept_ok, pure_bind, Node.identifierText_view (h.lookup "name") hname]
  dsimp only
  cases ownName? (lookup "name" fields) with
  | some name =>
    rw [Option.map_some]
    dsimp only
    rw [pushImport_view]
    exact Walk.alike_refl _
  | none =>
    obtain ⟨kinds, hfits⟩ := elements_field hfields hkind
    obtain ⟨hitems, hforall, hnodes⟩ := strip_nodes (h.lookup "elements") hfits helements
    have hfield : (Json.obj out).field "elements" = lookup "elements" out := rfl
    rw [Option.map_none]
    dsimp only
    rw [hfield, hitems, Walk.ofExcept_ok, pure_bind]
    exact importElements_view source hnodes hforall

/-- Recording the names of the bindings of a clause, if it has any. -/
theorem namedBindings_view {v u : Json} (source : Name) (h : v.EachObject Tree.Conforms)
    (hv : MaybeNode [.namespaceImport, .namedImports] v) (hstrip : strip w.kinds v = .ok u) :
    (if u.truthy then collectBindings (nameText source) u else pure ()).Alike Event.bare Eq
      (match View.bindingsOf w.kinds v with
      | some bindings => View.importBindings source bindings
      | none => pure ()) := by
  rw [(hv.strip hstrip).2]
  by_cases hnull : v = .null
  · rw [hnull]
    exact Walk.alike_refl _
  · rw [if_pos (hv.truthy_iff.mpr hnull)]
    obtain ⟨bindings, hbindings, halike⟩ :=
      collectBindings_view source h (hv.resolve_left hnull) hstrip
    rw [hbindings]
    exact halike

/-- Recording the names that the clause of an import declares. -/
theorem importClause_view {v u : Json} (source : Name) (h : v.EachObject Tree.Conforms)
    (hv : Tree.IsNode [.importClause] v) (hstrip : strip w.kinds v = .ok u) :
    ∃ clause, View.clauseOf w.kinds v = some clause ∧
      (do
        let nameNode ← Walk.ofExcept (Node.get u "name")
        match Node.identifierText nameNode with
        | some name => pushImport .default name (nameText source)
        | none => pure ()
        if (u.field "namedBindings").truthy then
          collectBindings (nameText source) (u.field "namedBindings")).Alike Event.bare Eq
        (View.importClause source clause) := by
  obtain ⟨fields, rfl, -⟩ := hv
  obtain ⟨_, out, -, -, rfl⟩ := Node.strip_obj_ok hstrip
  have hname : strip w.kinds (lookup "name" fields) = .ok (lookup "name" out) :=
    Node.strip_fields hstrip (by decide) (by decide)
  have hbindings : strip w.kinds (lookup "namedBindings" fields) =
      .ok (lookup "namedBindings" out) := Node.strip_fields hstrip (by decide) (by decide)
  have hrest := namedBindings_view source (h.lookup "namedBindings")
    (node_field "namedBindings" (fun _ => rfl) h) hbindings
  refine ⟨_, rfl, ?_⟩
  unfold View.importClause
  rw [Node.get_obj, Walk.ofExcept_ok, pure_bind, Node.identifierText_view (h.lookup "name") hname]
  dsimp only
  cases ownName? (lookup "name" fields) with
  | none => exact hrest
  | some name =>
    rw [Option.map_some]
    dsimp only
    rw [pushImport_view]
    exact (Walk.alike_refl _).bind fun _ _ _ => hrest

theorem collectImport_view (h : (Json.obj fields).EachObject Tree.Conforms) :
    (w.collectImport (.obj fields)).Alike Event.bare Eq ((View.of w.kinds fields).import w) := by
  obtain ⟨out, hstrip⟩ := Node.strip_conforming w.kinds h
  have hclause : strip w.kinds (lookup "importClause" fields) = .ok (lookup "importClause" out) :=
    Node.strip_fields hstrip (by decide) (by decide)
  have hclauseNode : MaybeNode [.importClause] (lookup "importClause" fields) :=
    node_field "importClause" (fun _ => rfl) h
  have hview : (View.of w.kinds fields).import w = (do
      let source ← NameView.resolve ⟨View.kindOf w.kinds (.obj fields), resolvedName? fields⟩
      match View.clauseOf w.kinds (lookup "importClause" fields) with
      | none => do
        let count ← Walk.token
        pushImport .default (.str (w.placeholder count)) (nameText source)
      | some clause => View.importClause source clause) := rfl
  unfold collectImport
  rw [strippedFields_eq hstrip, pure_bind, hview]
  refine (resolveName_view h hstrip).bind fun value source heq => ?_
  subst heq
  dsimp only
  rw [(hclauseNode.strip hclause).2]
  by_cases hnull : lookup "importClause" fields = .null
  · -- no clause: the same token is drawn on both sides
    rw [hnull]
    refine (Walk.alike_refl Walk.token).bind fun count _ heq => ?_
    subst heq
    exact Walk.alike_refl _
  · have hpresent := hclauseNode.truthy_iff.mpr hnull
    rw [hpresent]
    simp only [Bool.not_true, Bool.false_eq_true, if_false]
    obtain ⟨clause, hview, halike⟩ := importClause_view source (h.lookup "importClause")
      (hclauseNode.resolve_left hnull) hclause
    rw [hview]
    exact halike

/-! ## Statements -/

/-- **Collecting is a function of the view.** -/
theorem collect_view (h : (Json.obj fields).EachObject Tree.Conforms) (collector : Collector)
    (context : String) :
    (w.collect collector (.obj fields) (.str context)).Alike Event.bare Eq
      ((View.of w.kinds fields).collect w collector context) := by
  cases collector with
  | declaration heading => exact collectDeclaration_view h heading context
  | variableStatement => exact collectVariables_view h context
  | exportAssignment => exact collectExport_view h context
  | importDeclaration => exact collectImport_view h

/-- The flags of a node are a number. -/
theorem flags_view (h : (Json.obj fields).EachObject Tree.Conforms) :
    flagsOf (lookup "flags" fields) = .ok (View.flagsOf (lookup "flags" fields)) := by
  obtain ⟨⟨kind, hfields⟩, -⟩ := Json.eachObject_obj.mp h
  have hform : Tree.fieldForm kind "flags" = some .integer := rfl
  have hkey : "flags" ∈ Tree.requiredKeys kind := List.mem_append_left _ (by decide)
  obtain ⟨n, hn⟩ := hfields.lookup_required hform hkey
  rw [hn]
  rfl

/-- A module is entered by its view. -/
theorem enterModule_view (h : (Json.obj fields).EachObject Tree.Conforms) (context : Json) :
    (w.enterModule fields context).Alike Event.bare
      (fun entered inner => entered.2 = .str inner) ((View.of w.kinds fields).enter w) := by
  have hname : Node.identifierText (lookup "name" fields) =
      (ownName? (lookup "name" fields)).map nameText :=
    (Node.isNameOrNone_identifierText (Node.hasNameTexts_of_conforms (h.lookup "name"))).eq_map
  have hview : (View.of w.kinds fields).name = ownName? (lookup "name" fields) := rfl
  unfold enterModule View.enter
  rw [hname, hview]
  cases ownName? (lookup "name" fields) with
  | none =>
    refine Walk.Alike.unlogged (Walk.alike_fail ?_)
    rfl
  | some name =>
    have hspace : decide (commonBits (View.flagsOf (lookup "flags" fields)) w.namespaceFlags ≠ 0) =
        (View.of w.kinds fields).isNamespace w := rfl
    have hinner : w.innerContext ((View.of w.kinds fields).isNamespace w) (nameText name) =
        .str ((View.of w.kinds fields).innerContext w name) := by
      unfold innerContext View.innerContext
      split
      · rfl
      · rfl
    rw [Option.map_some]
    dsimp only
    rw [flags_view h, Walk.ofExcept_ok, pure_bind, hspace]
    split
    · exact (Walk.alike_refl _).bind fun _ _ _ => Walk.alike_pure hinner
    · exact Walk.alike_pure hinner

/-- Walks the body of a module, if it has one. -/
def innerBody (w : Walker) (fields : Fields) (context : String) : Walk Unit :=
  if (lookup "body" fields).truthy then w.bodyIn (.str context) fields else pure ()

/-- **Walking a statement is a function of its view and of the walk of its body.** -/
theorem statement_view (h : (Json.obj fields).EachObject Tree.Conforms) (context : String) :
    (w.statement (.str context) (.obj fields)).Alike Event.bare Eq
      ((View.of w.kinds fields).statement w (w.innerBody fields) context) := by
  have hview : (View.of w.kinds fields).kind = View.kindOf w.kinds (.obj fields) := rfl
  rw [statement_obj, Node.kindName_view h, Walk.ofExcept_ok, pure_bind]
  unfold dispatch View.statement
  rw [hview]
  cases (View.kindOf w.kinds (.obj fields)).bind StatementKind.ofName? with
  | none => exact fun _ => ⟨rfl, rfl, rfl⟩
  | some step =>
    cases step with
    | recorded collector => exact collect_view h collector context
    | module =>
      refine (enterModule_view h _).bind fun entered inner heq => ?_
      unfold moduleBody innerBody
      rw [heq]
      split
      · exact Walk.Alike.unlogged (Walk.alike_refl _)
      · exact Walk.alike_refl _

end Walker

end DeclCatalogue
