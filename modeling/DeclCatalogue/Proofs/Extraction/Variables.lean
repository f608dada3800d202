import DeclCatalogue.Proofs.Extraction.Visits
import DeclCatalogue.Proofs.Tree.TypeName
import DeclCatalogue.Proofs.Walk.Variables

/-!
# Extracting typed variables

From the declarators of a concrete tree to the records that are pushed. The text of a type is split
into segments, rebuilt as a tree of qualified names, stripped with the statement around it and taken
apart again; `extractSource_variables` says that what comes out are the segments that went in, for
each declarator of a statement that an extraction gets to.

`VariableView.IsOf` stands in the middle: what is read off the node that a declarator is built into,
said of the declarator itself.
-/

namespace DeclCatalogue

open Json (lookup)
open Node (asName? asText? ownName? ownText?)
open DeclCatalogue.Tree (make flagged Yields Built RefersBy referredName TypeShape)

/-! ## Declarators -/

/-- The declarators of a statement of variables. -/
def declarators (c : SourceTree) : List SourceTree :=
  (Cst.named c.children).filter fun d => d.type = "variable_declarator"

/-- The types of nodes that annotate something with the type in them. -/
def annotationTypes : List String := ["type_annotation", "constraint", "default_type"]

/-- The types of nodes that refer to a name, directly or through an annotation. -/
def referringTypes : List String :=
  annotationTypes ++ ["type_identifier", "identifier", "nested_type_identifier", "generic_type"]

/-- A type node that refers to the name made of the given segments. -/
inductive RefersTo (source : Source) : List String → SourceTree → Prop where
  | plain {name : String} {c : SourceTree} : c.type = "type_identifier" →
      source.text c.head = .ok name → IsSegment name → RefersTo source [name] c
  | nested {names : List String} {text : String} {c : SourceTree} :
      c.type = "nested_type_identifier" → source.text c.head = .ok text → IsDotted names text →
      names ≠ [] → RefersTo source names c
  | generic {names : List String} {text : String} {nameNode c : SourceTree} :
      c.type = "generic_type" → Cst.childAt? "name" c.children = some nameNode →
      source.text nameNode.head = .ok text → IsDotted names text → names ≠ [] →
      RefersTo source names c

/-- A declarator is annotated with a type, the first one in its annotation. -/
def IsAnnotated (d type : SourceTree) : Prop :=
  ∃ wrapper, Cst.childAt? "type" d.children = some wrapper ∧
    wrapper.type ∈ annotationTypes ∧ (Cst.named wrapper.children).head? = some type

/-- A declarator of a variable with a name, whose type refers to the name made of the segments. -/
structure IsTyped (source : Source) (name : String) (names : List String) (d : SourceTree) :
    Prop where
  binding : ∃ node, Cst.childAt? "name" d.children = some node ∧ node.type = "identifier" ∧
    source.text node.head = .ok name
  nonempty : name ≠ ""
  type : ∃ type, IsAnnotated d type ∧ RefersTo source names type

/-- A declarator that nothing is recorded of: without a type, with one that refers to no name, or
with a pattern for its name. -/
inductive IsUnrecorded (d : SourceTree) : Prop where
  | untyped : Cst.childAt? "type" d.children = none → IsUnrecorded d
  | unnamed (type : SourceTree) : IsAnnotated d type → type.type ∉ referringTypes → IsUnrecorded d
  | pattern (node : SourceTree) : Cst.childAt? "name" d.children = some node →
      node.type ∈ ["object_pattern", "array_pattern"] → IsUnrecorded d

/-- A record of a variable with the given name, whose type has the name made of the segments: the
last one is its value. A single segment stands in the root context, and of several those in front of
the last one are the context of the value. -/
structure VariableRecord.HasType (record : VariableRecord) (root name : String)
    (names : List String) : Prop where
  name : record.name.val = name
  value : names.getLast? = some record.value.val
  plain : names.length = 1 → record.context = some root ∧ record.valueContext = none
  qualified : 2 ≤ names.length →
    record.context = none ∧ record.valueContext = some (".".intercalate names.dropLast)

/-! ## Types of declarators -/

/-- The segments of the name that the type of a declarator refers to. -/
def declaredType (source : Source) (d : SourceTree) : List String :=
  ((Cst.childAt? "type" d.children).map (referredName source)).getD []

variable {source : Source} {c d : SourceTree} {names : List String}

/-- The segments of a type are read off it. -/
theorem RefersTo.referredName_eq (h : RefersTo source names c) : referredName source c = names := by
  rw [Tree.referredName_eq]
  cases h with
  | plain htype htext hsegment =>
    rw [htype]
    show Tree.nameAt source c.head = _
    unfold Tree.nameAt
    rw [htext]
    exact List.filter_cons_of_pos (by simpa using hsegment.nonempty)
  | nested htype htext hdotted hne =>
    rw [htype]
    show Tree.segmentsAt source c.head = _
    unfold Tree.segmentsAt
    rw [htext]
    exact segments_of_isDotted hne hdotted
  | generic htype hname htext hdotted hne =>
    rw [htype]
    show ((Cst.childAt? "name" c.children).map _).getD [] = _
    rw [hname]
    show Tree.segmentsAt source _ = _
    unfold Tree.segmentsAt
    rw [htext]
    exact segments_of_isDotted hne hdotted

/-- A type that refers to a name has one with segments. -/
theorem RefersTo.areNames (h : RefersTo source names c) : names ≠ [] ∧ Tree.AreNames names := by
  refine ⟨?_, h.referredName_eq ▸ Tree.areNames_referredName source c⟩
  cases h with
  | plain => exact List.cons_ne_nil _ _
  | nested _ _ _ hne => exact hne
  | generic _ _ _ _ hne => exact hne

theorem shape_annotationTypes {type : String} (h : type ∈ annotationTypes) :
    TypeShape.ofType type = .wrapper := by
  unfold annotationTypes at h
  simp only [List.mem_cons, List.not_mem_nil, or_false] at h
  rcases h with rfl | rfl | rfl <;> rfl

/-- Only the types of nodes that refer to a name have these shapes. -/
theorem mem_referringTypes {type : String}
    (h : TypeShape.ofType type ∈ [TypeShape.wrapper, .name, .dottedName, .generic]) :
    type ∈ referringTypes := by
  unfold TypeShape.ofType at h
  split at h
  all_goals first
    | decide
    | exact absurd h (by decide)

/-- Any other type refers to no name. -/
theorem referredName_eq_nil (h : c.type ∉ referringTypes) : referredName source c = [] := by
  have hshape : TypeShape.ofType c.type ∉ [TypeShape.wrapper, .name, .dottedName, .generic] :=
    fun hmem => h (mem_referringTypes hmem)
  rw [Tree.referredName_eq]
  cases hc : TypeShape.ofType c.type with
  | wrapper | name | dottedName | generic => exact absurd (by rw [hc]; decide) hshape
  | _ => rfl

/-- The type of a declarator is that in its annotation. -/
theorem IsAnnotated.declaredType_eq {type : SourceTree} (h : IsAnnotated d type) :
    declaredType source d = referredName source type := by
  obtain ⟨wrapper, hwrapper, htype, hfirst⟩ := h
  unfold declaredType
  rw [hwrapper, Option.map_some, Option.getD_some, Tree.referredName_eq,
    shape_annotationTypes htype]
  dsimp only
  rw [hfirst]
  rfl

/-! ## What is read off a declarator -/

/-- What is read off the node that a declarator is built into. -/
structure VariableView.IsOf (source : Source) (d : SourceTree) (view : VariableView) : Prop where
  identifier : ∀ node text, Cst.childAt? "name" d.children = some node →
    node.type = "identifier" → source.text node.head = .ok text → view.name = asName? (.str text)
  pattern : ∀ node, Cst.childAt? "name" d.children = some node →
    node.type ∈ ["object_pattern", "array_pattern"] → view.name = none
  type : ∃ type, RefersBy (declaredType source d) type ∧ view.type = TypeView.of type

/-- A name that is an identifier or a pattern. -/
theorem binding_name (source : Source) (node : SourceTree) :
    Yields (Tree.readTree source node).note.binding fun name =>
      (∀ text, node.type = "identifier" → source.text node.head = .ok text →
        ownText? (name.getD .null) = asText? (.str text)) ∧
      (node.type ∈ ["object_pattern", "array_pattern"] → ownName? (name.getD .null) = none) := by
  rw [Tree.note_readTree]
  show Yields (Tree.binding source node.head (node.children.map (Tree.readTree source))) _
  intro name hname
  unfold Tree.binding at hname
  refine ⟨fun text htype htext => ?_, fun htype => ?_⟩
  · have htype : node.head.type = "identifier" := htype
    rw [htype] at hname
    have hname : (source.text node.head).map (Tree.identifierNamed node.head) = .ok name := hname
    rw [htext] at hname
    rw [← Except.ok.inj hname]
    exact Tree.ownText_identifierNamed node.head text
  · rw [List.mem_cons, List.mem_singleton] at htype
    have htype : node.head.type = "object_pattern" ∨ node.head.type = "array_pattern" := htype
    rcases htype with htype | htype
    · rw [htype] at hname
      rw [← Except.ok.inj hname]
      rfl
    · rw [htype] at hname
      rw [← Except.ok.inj hname]
      rfl

theorem bindingOf_name (source : Source) (node : Option SourceTree) :
    Yields (Tree.bindingOf? (node.map (Tree.readTree source))) fun name =>
      (∀ c text, node = some c → c.type = "identifier" → source.text c.head = .ok text →
        ownText? (name.getD .null) = asText? (.str text)) ∧
      ∀ c, node = some c → c.type ∈ ["object_pattern", "array_pattern"] →
        ownName? (name.getD .null) = none := by
  cases node with
  | none => exact Tree.yields_ok ⟨fun _ _ h => (by cases h), fun _ h => by cases h⟩
  | some c =>
    refine (binding_name source c).mono fun name h => ⟨?_, ?_⟩
    · rintro _ text ⟨⟩ htype htext
      exact h.1 text htype htext
    · rintro _ ⟨⟩ htype
      exact h.2 htype

/-- **A declarator is built into a node that shows its name and its type.** -/
theorem variableDeclaration_view (source : Source) (d : SourceTree) :
    Yields (Tree.variableDeclaration (Tree.readTree source d)) fun v =>
      (VariableView.of v).IsOf source d := by
  unfold Tree.variableDeclaration
  rw [Tree.children_readTree, Tree.childAt?_readTree, Tree.childAt?_readTree,
    Tree.childAt?_readTree]
  refine (bindingOf_name source _).bind fun name hname => ?_
  refine (Tree.typeOf_reference source _).bind fun type htype => ?_
  refine (Tree.yields_any _).bind fun initializer _ => Tree.yields_pure ?_
  rw [Tree.variableView_make]
  exact ⟨fun node text hnode htype htext =>
      Node.ownName?_of_ownText? (hname.1 node text hnode htype htext),
    hname.2, type.getD .null, htype, rfl⟩

/-! ## Records of declarators -/

variable {view : VariableView} {name : String}

/-- A declarator with a name and a type that refers to one has a record. -/
theorem VariableView.IsOf.record_typed (h : view.IsOf source d)
    (htyped : IsTyped source name names d) (root : String) :
    ∃ record, view.record? root = some record ∧ record.HasType root name names := by
  obtain ⟨⟨node, hnode, hidentifier, htext⟩, hname, type, hannotated, hrefers⟩ := htyped
  obtain ⟨hne, hnames⟩ := hrefers.areNames
  obtain ⟨value, hvalue, hview⟩ := h.type
  have hformed : Text.isWellFormed name = true := source.yields_text _ _ htext
  have hown : view.name = some ⟨name, hname, hformed⟩ :=
    (h.identifier node name hnode hidentifier htext).trans
      (Node.asName?_nameText ⟨name, hname, hformed⟩)
  rw [hannotated.declaredType_eq, hrefers.referredName_eq] at hvalue
  obtain ⟨viewName, viewType⟩ := view
  dsimp only at hown hview
  subst hown
  rcases List.eq_nil_or_concat' names with rfl | ⟨init, last, rfl⟩
  · exact absurd rfl hne
  obtain ⟨last, rfl⟩ : ∃ lastName : Name, lastName.val = last :=
    ⟨⟨last, hnames last (List.mem_append_right _ (List.mem_singleton_self last))⟩, rfl⟩
  by_cases hinit : init = []
  · subst hinit
    rw [hvalue.view_single] at hview
    subst hview
    refine ⟨_, rfl, rfl, rfl, fun _ => ⟨rfl, rfl⟩, fun hlength => ?_⟩
    simp at hlength
  · rw [hvalue.view_concat hinit] at hview
    subst hview
    have hinits : Tree.AreNames init := fun n hn => hnames n (List.mem_append_left _ hn)
    have hcontainer : asName? (.str (".".intercalate init)) =
        some ⟨".".intercalate init, hinits.intercalate hinit⟩ :=
      Node.asName?_nameText ⟨_, hinits.intercalate hinit⟩
    refine ⟨_, rfl, rfl, ?_, fun hlength => ?_, fun _ => ⟨rfl, ?_⟩⟩
    · rw [List.getLast?_concat]
    · have hpositive := List.length_pos_iff.mpr hinit
      simp only [List.length_append, List.length_singleton] at hlength
      omega
    · rw [hcontainer, List.dropLast_concat]
      rfl

/-- Nothing is recorded of the others. -/
theorem VariableView.IsOf.record_none (h : view.IsOf source d) (hnone : IsUnrecorded d)
    (root : String) : view.record? root = none := by
  obtain ⟨type, hrefers, hview⟩ := h.type
  cases hnone with
  | untyped htype =>
    have hnothing : declaredType source d = [] := by
      unfold declaredType
      rw [htype]
      rfl
    rw [hnothing] at hrefers
    exact VariableView.record?_eq_none root (.inr (hview.trans hrefers.view_nil))
  | unnamed node hannotated htype =>
    rw [hannotated.declaredType_eq, referredName_eq_nil htype] at hrefers
    exact VariableView.record?_eq_none root (.inr (hview.trans hrefers.view_nil))
  | pattern node hnode htype =>
    exact VariableView.record?_eq_none root (.inl (h.pattern node hnode htype))

/-! ## Statements of variables -/

/-- A node that is read as a statement of variables, with what is read off its declarators. -/
def DeclaresVariables (source : Source) (ds : List SourceTree) (v : Json) : Prop :=
  ∃ fields, v = .obj fields ∧ lookup "kind" fields = .int SyntaxKind.variableStatement.code ∧
    List.Forall₂ (fun d view => VariableView.IsOf source d view) ds
      (View.of .standard fields).declarations

theorem declaresVariables_make {ds : List SourceTree} {vs : List Json}
    (h : List.Forall₂ (fun d v => (VariableView.of v).IsOf source d) ds vs) (head : CstHead)
    (flags : Nat) (modifiers : Option Json) :
    DeclaresVariables source ds (make .variableStatement head
      [("modifiers", modifiers), ("declarationList", some (flagged .variableDeclarationList head
        flags [("declarations", some (.arr vs))]))]) := by
  refine ⟨_, rfl, rfl, ?_⟩
  have hlist : lookup "declarationList" (Tree.present
      [("modifiers", modifiers), ("declarationList", some (flagged .variableDeclarationList head
        flags [("declarations", some (.arr vs))]))]) = flagged .variableDeclarationList head flags
          [("declarations", some (.arr vs))] := by
    rw [Tree.lookup_present_cons _ _ _ _ (by simp), if_neg (by decide),
      Tree.lookup_present_cons _ _ _ _ (by simp), if_pos rfl]
    rfl
  show List.Forall₂ _ ds ((View.itemsOf ((lookup "declarationList"
    (Tree.present _)).field "declarations")).map VariableView.of)
  rw [hlist]
  exact List.forall₂_map_right_iff.mpr h

/-- The declarators of a statement are built one by one. -/
theorem variableStatement_declares (source : Source) (head : CstHead) (cs : List SourceTree)
    (inherited : List ModifierKind) :
    Yields (Tree.variableStatement head (cs.map (Tree.readTree source)) inherited)
      (DeclaresVariables source
        ((Cst.named cs).filter fun d => d.type = "variable_declarator")) := by
  have hnodes : (Cst.named (cs.map (Tree.readTree source))).filter
      (fun d => d.type = "variable_declarator") =
        ((Cst.named cs).filter fun d => d.type = "variable_declarator").map
          (Tree.readTree source) := by
    rw [Tree.named_readTree]
    exact Tree.filter_readTree source _ fun t => decide (t = "variable_declarator")
  unfold Tree.variableStatement
  dsimp only
  rw [hnodes]
  generalize (Cst.named cs).filter _ = ds
  have hviews : Yields (Tree.decodeEach Tree.variableDeclaration (ds.map (Tree.readTree source)))
      fun vs => List.Forall₂ (fun d v => (VariableView.of v).IsOf source d) ds vs := by
    have heach : ∀ n ∈ ds.map (Tree.readTree source), Yields (Tree.variableDeclaration n) fun v =>
        ∀ d, n = Tree.readTree source d → (VariableView.of v).IsOf source d := by
      rintro n - v hv d rfl
      exact variableDeclaration_view source d v hv
    refine (Tree.yields_decodeEach_forall₂ heach).mono fun vs hvs => ?_
    exact (List.forall₂_map_left_iff.mp hvs).imp fun d v h => h d rfl
  exact hviews.bind fun vs hvs => Tree.yields_pure (declaresVariables_make hvs ..)

/-- A statement of variables is read as one node, in which its declarators stand in order. -/
theorem readTree_variables (source : Source) {c : SourceTree}
    (hshape : Tree.StatementShape.ofType c.type = .variableList) (inherited : List ModifierKind) :
    Yields ((Tree.readTree source c).note.statement inherited).result fun us =>
      ∃ v, us = [v] ∧ DeclaresVariables source (declarators c) v := by
  have hshape : Tree.StatementShape.ofType c.head.type = .variableList := hshape
  rw [Tree.note_readTree]
  show Yields (Tree.statement source c.head (c.children.map (Tree.readTree source))
    inherited).result _
  unfold Tree.statement
  rw [hshape]
  simp only [Built.result_bind, Built.result_lift, Built.result_pure]
  exact (variableStatement_declares source c.head c.children inherited).bind fun v hv =>
    Tree.yields_ok ⟨v, rfl, hv⟩

/-- Records of variables hold no node, so they are seen as they are. -/
theorem Push.eq_of_bare_variables {ps : List Push} {records : List VariableRecord} {context : Json}
    (h : ps.map Push.bare = records.map fun record => .variableRecord record context) :
    ps = records.map fun record => .variableRecord record context := by
  have hbare : ∀ p ∈ ps, p.bare = p := by
    intro p hp
    have hmem : p.bare ∈ records.map fun record => Push.variableRecord record context :=
      h ▸ List.mem_map_of_mem hp
    obtain ⟨record, -, hrecord⟩ := List.mem_map.mp hmem
    cases p with
    | declaration heading record under => cases hrecord
    | _ => rfl
  rw [← h]
  exact ((List.map_congr_left hbare).trans (List.map_id ps)).symm

/-- A visit of a statement of variables pushes their records, in order. -/
theorem Walker.visit_variables {w : Walker} (hkinds : w.kinds = .standard) {fields : Fields}
    {inherited : List ModifierKind}
    (hread : ((Tree.readTree source c).note.statement inherited).result = .ok [.obj fields])
    (hkind : lookup "kind" fields = .int SyntaxKind.variableStatement.code)
    (context : String) (drawn : Nat) :
    let paid := w.visit source (.statement context inherited c) drawn
    let records := (View.of .standard fields).declarations.filterMap
      (VariableView.record? w.rootContext)
    paid.result = .ok () ∧ paid.drawn = drawn ∧
      Event.pushes paid.events =
        records.map fun record => .variableRecord record (.str context) := by
  intro paid records
  have hview := w.visit_view hread context
  have hstatement : (View.of .standard fields).statement w (w.innerBody fields) context =
      Walk.forEach (fun record => Walk.push (.variableRecord record (.str context))) records := by
    unfold View.statement
    rw [View.step_standard hkind]
    rfl
  rw [hkinds, hstatement] at hview
  have husable : ∀ record : VariableRecord,
      (Push.variableRecord record (.str context)).isUsable = true := fun _ => rfl
  obtain ⟨hevents, hdrawn, hresult⟩ := hview drawn
  rw [forEach_push_apply husable] at hevents hdrawn hresult
  refine ⟨hresult.eq_ok, hdrawn, Push.eq_of_bare_variables ?_⟩
  rw [← Event.pushes_bare, hevents]
  clear hevents
  induction records with
  | nil => rfl
  | cons record rest ih => exact congrArg (Push.variableRecord record (.str context) :: ·) ih

/-! ## Extractions -/

namespace World

/-- **Typed variables from the source to the catalogue.** Let an extraction with the standard kinds
get to a statement of variables, wherever it stands. Then each of its declarators has a record or
none, and the records are pushed under the context of the statement, in the order of the
declarators and between what was pushed before and what is pushed by the visits behind. A declarator
of a variable with a name, whose type refers to a dotted name, has one with that name and with the
last segment as its value. A name with a single segment stands in the root context; of a longer one
the segments in front of the last are the context of the value, and there is no other. A declarator
without a type, with one that refers to no name, or with a pattern for its name has none. -/
theorem extractSource_variables (world : World) (settings : Settings)
    (hkinds : settings.kindTable world.files = .ok .standard) (bytes : ByteArray)
    (module fileName : Option String) (tsx : Option Bool) (drawn : Nat) {before after : List Visit}
    {context : String} {inherited : List ModifierKind} {c : SourceTree}
    (hvisit : world.Reaches settings bytes module fileName tsx drawn before
      (.statement context inherited c) after)
    (htype : c.type = "lexical_declaration" ∨ c.type = "variable_declaration") :
    let w := settings.walker .standard world.tokens
    let outcome := world.extractSource settings bytes module fileName tsx drawn
    let start := w.course ⟨bytes⟩ before drawn
    ∃ records : List (Option VariableRecord),
      List.Forall₂ (fun d record =>
        (∀ name names, IsTyped ⟨bytes⟩ name names d → ∃ r, record = some r ∧
          r.HasType settings.rootContext name names) ∧
        (IsUnrecorded d → record = none)) (declarators c) records ∧
      Event.pushes outcome.events = Event.pushes start.events ++
        (records.filterMap id).map (fun record => .variableRecord record (.str context)) ++
        Event.pushes (w.course ⟨bytes⟩ after start.drawn).events := by
  intro w outcome start
  have hshape : Tree.StatementShape.ofType c.type = .variableList := by
    rcases htype with htype | htype
    · rw [htype]
      rfl
    · rw [htype]
      rfl
  obtain ⟨us, hread⟩ := hvisit.reads hkinds
  obtain ⟨_, rfl, fields, rfl, hkind, hviews⟩ :=
    readTree_variables ⟨bytes⟩ hshape inherited us hread
  obtain ⟨hok, hdrawn, hpushes⟩ :=
    Walker.visit_variables (w := w) rfl hread hkind context start.drawn
  have houtcome := (hvisit.outcome hkinds).1 hok
  rw [hpushes, hdrawn] at houtcome
  refine ⟨(View.of .standard fields).declarations.map (VariableView.record? settings.rootContext),
    ?_, ?_⟩
  · refine List.forall₂_map_right_iff.mpr (hviews.imp fun d view hview => ⟨?_, ?_⟩)
    · intro name names htyped
      exact hview.record_typed htyped settings.rootContext
    · intro hnone
      exact hview.record_none hnone settings.rootContext
  · rw [List.filterMap_map]
    exact houtcome

/-- A type in an annotation. -/
def annotated (type : SourceTree) : SourceTree :=
  .node ⟨"type_annotation", true, some "type", 0, 0⟩ () [type]

/-- A declarator of a variable whose name stands at the given bytes. -/
def declaratorOf (type : String) (start stop : Nat) (annotations : List SourceTree) : SourceTree :=
  .node ⟨"variable_declarator", true, none, 0, 0⟩ ()
    (.node ⟨type, true, some "name", start, stop⟩ () [] :: annotations)

/-- Four variables: of a type with a dotted name, of a generic type, a pattern, and one without a
type. -/
def fourVariables : SourceTree :=
  .node ⟨"lexical_declaration", true, some "declaration", 21, 53⟩ ()
    [.node ⟨"let", false, none, 21, 24⟩ () [],
     declaratorOf "identifier" 25 26
       [annotated (.node ⟨"nested_type_identifier", true, none, 28, 32⟩ () [])],
     declaratorOf "identifier" 34 35
       [annotated (.node ⟨"generic_type", true, none, 37, 41⟩ ()
         [.node ⟨"type_identifier", true, some "name", 37, 38⟩ () []])],
     declaratorOf "object_pattern" 43 46
       [annotated (.node ⟨"type_identifier", true, none, 48, 49⟩ () [])],
     declaratorOf "identifier" 51 52 []]

/-- An export of a declaration. -/
def exportAround (declaration : SourceTree) : SourceTree :=
  .node ⟨"export_statement", true, none, 14, 53⟩ ()
    [.node ⟨"export", false, none, 14, 20⟩ () [], declaration]

/-- The four variables are exported from a namespace: the first two are recorded, in its context. -/
theorem extractSource_variables_exported :
    let bytes := "namespace N \x7b export let x: B. C, y: D<E>, \x7bz\x7d: F, u; \x7d".toUTF8
    let world := always (blockOf (namespaceNode 10 11 (blockOf (exportAround fourVariables))))
    ∃ first second : VariableRecord,
      first.HasType "root" "x" ["B", "C"] ∧ second.HasType "root" "y" ["D"] ∧
      Event.pushes (world.extractSource Settings.standard bytes none none none 0).events =
        [.namespaceName (.str "N"), .variableRecord first (.str "npm$namespace$N"),
         .variableRecord second (.str "npm$namespace$N")] := by
  intro bytes world
  have hvisit : world.Reaches Settings.standard bytes none none none 0
      [.enter ⟨"N", NodeFlag.namespaceModule.bit⟩]
      (.statement "npm$namespace$N" [.exported] fourVariables) [] :=
    .of_ok rfl (by decide +kernel) (by decide +kernel)
  obtain ⟨records, hrecords, hpushes⟩ := extractSource_variables world Settings.standard rfl bytes
    none none none 0 hvisit (.inl rfl)
  have hsegment : ∀ name ∈ ["B", "C", "D"], IsSegment name := by
    refine List.forall_mem_cons.mpr ⟨?_, List.forall_mem_cons.mpr ⟨?_,
      List.forall_mem_singleton.mpr ?_⟩⟩
    · exact ⟨by decide, by decide +kernel, by decide⟩
    · exact ⟨by decide, by decide +kernel, by decide⟩
    · exact ⟨by decide, by decide +kernel, by decide⟩
  have hdotted : IsDotted ["B", "C"] "B. C" := by
    refine ⟨?_, [['B'], [' ', 'C']], .cons ⟨[], [], ?_⟩ (.cons ⟨[' '], [], ?_⟩ .nil), by decide⟩
    · exact fun name hname => hsegment name (List.mem_append_left ["D"] hname)
    · exact ⟨List.forall_mem_nil _, List.forall_mem_nil _, rfl⟩
    · exact ⟨List.forall_mem_singleton.mpr (by decide), List.forall_mem_nil _, rfl⟩
  have hgeneric : IsDotted ["D"] "D" := isDotted_singleton (hsegment "D" (by decide))
  obtain _ | ⟨hx, _ | ⟨hy, _ | ⟨hz, _ | ⟨hu, _ | _⟩⟩⟩⟩ := hrecords
  obtain ⟨first, rfl, hfirst⟩ := hx.1 "x" ["B", "C"] ⟨⟨_, rfl, rfl, by decide +kernel⟩, by decide,
    _, ⟨_, rfl, by decide, rfl⟩, .nested rfl (by decide +kernel) hdotted (by decide)⟩
  obtain ⟨second, rfl, hsecond⟩ := hy.1 "y" ["D"] ⟨⟨_, rfl, rfl, by decide +kernel⟩, by decide,
    _, ⟨_, rfl, by decide, rfl⟩, .generic rfl rfl (by decide +kernel) hgeneric (by decide)⟩
  obtain rfl := hz.2 (.pattern _ rfl (by decide))
  obtain rfl := hu.2 (.untyped rfl)
  have hstart : Event.pushes ((Settings.standard.walker .standard world.tokens).course ⟨bytes⟩
      [.enter ⟨"N", NodeFlag.namespaceModule.bit⟩] 0).events = [.namespaceName (.str "N")] := by
    decide +kernel
  rw [hstart] at hpushes
  exact ⟨first, second, hfirst, hsecond, hpushes⟩

/-- A module without a name is passed over with everything in it: the extraction succeeds, and
nothing is recorded of the variable in its body. -/
theorem extractSource_variables_unnamedModule :
    let bytes := "module \x7b let x: Foo; \x7d".toUTF8
    let typed := declaratorOf "identifier" 13 14
      [annotated (.node ⟨"type_identifier", true, none, 16, 19⟩ () [])]
    let statement : SourceTree := .node ⟨"lexical_declaration", true, none, 9, 20⟩ ()
      [.node ⟨"let", false, none, 9, 12⟩ () [], typed]
    let unnamed : SourceTree := .node ⟨"module", true, none, 0, 22⟩ () [blockOf statement]
    let outcome := (always (blockOf unnamed)).extractSource Settings.standard bytes none none none 0
    declarators statement = [typed] ∧ IsTyped ⟨bytes⟩ "x" ["Foo"] typed ∧
      outcome.result.isOk = true ∧ Event.pushes outcome.events = [] := by
  intro bytes typed statement unnamed outcome
  have hsegment : IsSegment "Foo" := ⟨by decide, by decide +kernel, by decide⟩
  refine ⟨rfl, ⟨⟨_, rfl, rfl, by decide +kernel⟩, by decide, _, ⟨_, rfl, by decide, rfl⟩,
    .plain rfl (by decide +kernel) hsegment⟩, by decide +kernel, by decide +kernel⟩

end World

end DeclCatalogue
