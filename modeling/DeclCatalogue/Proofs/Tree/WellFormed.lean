import DeclCatalogue.Proofs.Tree.ConformingTree

/-!
# What can be relied on in a built tree

Whoever walks a tree or collects from it looks into its objects without asking first: a kind is an
integer with a name, what is listed is a list, the name of a module is an object with a text, and
the name of a type is a name all the way down. `WellFormed` says this of one object, with the few
shapes that go deeper than one object as predicates of their own: names of types (`NameNode`),
modules inside modules (`ModuleNode`) and what an import binds (`BindingsNode`).

The schema gives it to every object of a tree without links, by induction where a shape goes deeper
(`wellFormed_of_conforms`), and a link takes nothing of it away (`WellFormed.link`). So it holds of
all objects in the tree of a file, if the file has one (`build_wellFormed`); nothing is asked of the
concrete tree, which may lack any field and hold any text.
-/

namespace DeclCatalogue.Tree

open Json (lookup EachObject)
open Node (linked linkUnder linkUnder_obj lookup_linked lookup_linked_int mem_linked Linkless)

/-! ## Shapes -/

/-- An object has the tag of a kind. -/
def OfKind (kind : SyntaxKind) (fields : Fields) : Prop :=
  lookup "kind" fields = .int kind.code

/-- A name: an identifier, or one more identifier on the right of a name. -/
inductive NameNode : Json → Prop where
  | identifier {fields : Fields} : OfKind .identifier fields → NameNode (.obj fields)
  | qualified {fields right : Fields} : OfKind .qualifiedName fields →
      NameNode (lookup "left" fields) → lookup "right" fields = .obj right →
      OfKind .identifier right → NameNode (.obj fields)

/-- A module that has an object as its name, with a text. -/
structure NamedModule (fields : Fields) : Prop where
  kind : OfKind .moduleDeclaration fields
  name : ∃ name text, lookup "name" fields = .obj name ∧ lookup "text" name = .str text

/-- A module without a body, around a block of statements, or around one more module. -/
inductive ModuleNode : Json → Prop where
  | bare {fields : Fields} : NamedModule fields → lookup "body" fields = .null →
      ModuleNode (.obj fields)
  | block {fields body : Fields} {statements : List Json} : NamedModule fields →
      lookup "body" fields = .obj body → OfKind .moduleBlock body →
      lookup "statements" body = .arr statements → ModuleNode (.obj fields)
  | nested {fields : Fields} : NamedModule fields → ModuleNode (lookup "body" fields) →
      ModuleNode (.obj fields)

/-- What an import binds: a whole module, or a list of names. -/
inductive BindingsNode : Json → Prop where
  | whole {fields : Fields} : OfKind .namespaceImport fields → BindingsNode (.obj fields)
  | listed {fields : Fields} {elements : List Json} : OfKind .namedImports fields →
      lookup "elements" fields = .arr elements → BindingsNode (.obj fields)

/-- The fields that hold a list wherever they are. -/
def listKeys : List String :=
  ["statements", "members", "parameters", "typeParameters", "modifiers", "declarations", "elements",
   "types", "typeArguments"]

/-- An object is as a reader of trees expects it. What is missing in it is left out and not null. -/
structure WellFormed (fields : Fields) : Prop where
  kind : ∃ kind, OfKind kind fields
  integers : ∀ key ∈ ["pos", "end", "flags"], ∃ n, lookup key fields = .int n
  present : ∀ f ∈ fields, f.2 ≠ .null
  lists : ∀ f ∈ fields, f.1 ∈ listKeys → ∃ vs, f.2 = .arr vs
  text : OfKind .identifier fields → ∃ s, s ≠ "" ∧ lookup "text" fields = .str s
  module : OfKind .moduleDeclaration fields → ModuleNode (.obj fields)
  typeName : lookup "typeName" fields = .null ∨ NameNode (lookup "typeName" fields)
  bindings : OfKind .importClause fields →
    lookup "namedBindings" fields = .null ∨ BindingsNode (lookup "namedBindings" fields)

/-! ## From the schema -/

/-- A node keeps to the schema of one of its kinds. -/
theorem NodeOf.conformsTo {kinds : List SyntaxKind} {v : Json} (h : NodeOf kinds v) :
    ∃ fields, v = .obj fields ∧ ∃ kind ∈ kinds, ConformsTo kind fields := by
  obtain ⟨⟨fields, rfl, kind, hkind, htag⟩, hall⟩ := h
  obtain ⟨⟨other, hother⟩, -⟩ := Json.eachObject_obj.mp hall
  obtain rfl := hother.kind_unique htag
  exact ⟨fields, rfl, other, hkind, hother⟩

/-- A node of one kind keeps to the schema of that kind. -/
theorem NodeOf.conformsTo_single {kind : SyntaxKind} {v : Json} (h : NodeOf [kind] v) :
    ∃ fields, v = .obj fields ∧ ConformsTo kind fields := by
  obtain ⟨fields, rfl, other, hother, hself⟩ := h.conformsTo
  exact ⟨fields, rfl, List.mem_singleton.mp hother ▸ hself⟩

section Lookup

variable {kind : SyntaxKind} {fields : Fields} {kinds : List SyntaxKind}

/-- A node under a field, if there is anything. -/
theorem nodeOf_lookup (hself : ConformsTo kind fields) (h : (Json.obj fields).EachObject Conforms)
    (key : String) (hform : fieldForm kind key = some (.node kinds)) :
    lookup key fields = .null ∨ NodeOf kinds (lookup key fields) :=
  (hself.lookup hform).imp_right fun hnode => ⟨hnode, h.lookup key⟩

/-- A node under a field that the schema requires. -/
theorem nodeOf_required (hself : ConformsTo kind fields)
    (h : (Json.obj fields).EachObject Conforms) (key : String)
    (hform : fieldForm kind key = some (.node kinds)) (hkey : key ∈ requiredKeys kind) :
    NodeOf kinds (lookup key fields) :=
  ⟨hself.lookup_required hform hkey, h.lookup key⟩

/-- A list under a field that the schema requires. -/
theorem nodes_required (hself : ConformsTo kind fields) (key : String)
    (hform : fieldForm kind key = some (.nodes kinds)) (hkey : key ∈ requiredKeys kind) :
    ∃ vs, lookup key fields = .arr vs := by
  obtain ⟨vs, hvs, -⟩ := hself.lookup_required hform hkey
  exact ⟨vs, hvs⟩

end Lookup

theorem nameNode_of_nodeOf (v : Json) (h : NodeOf [.identifier, .qualifiedName] v) :
    NameNode v := by
  induction v using Json.induct_lookup with
  | obj fields ih =>
    obtain ⟨_, ⟨⟩, kind, hkind, hself⟩ := h.conformsTo
    simp only [List.mem_cons, List.not_mem_nil, or_false] at hkind
    rcases hkind with rfl | rfl
    · exact .identifier hself.kind_eq
    · have hleft := nodeOf_required hself h.2 "left" rfl (by decide)
      obtain ⟨right, hright, hidentifier⟩ :=
        (nodeOf_required hself h.2 "right" rfl (by decide)).conformsTo_single
      exact .qualified hself.kind_eq (ih "left" hleft) hright hidentifier.kind_eq
  | _ => obtain ⟨⟨_, h, -⟩, -⟩ := h; cases h

/-- An identifier has a text that is not empty. -/
theorem identifier_text {fields : Fields} (hself : ConformsTo .identifier fields) :
    ∃ s, s ≠ "" ∧ lookup "text" fields = .str s := by
  have hform : fieldForm .identifier "text" = some .name := rfl
  obtain ⟨s, hne, -, hs⟩ := hself.lookup_required hform (by decide)
  exact ⟨s, hne, hs⟩

/-- The name of a module is an identifier or a string, and both have a text. -/
theorem namedModule_of_conformsTo {fields : Fields} (hself : ConformsTo .moduleDeclaration fields)
    (h : (Json.obj fields).EachObject Conforms) : NamedModule fields := by
  obtain ⟨name, hname, kind, hkind, hnode⟩ :=
    (nodeOf_required hself h "name" rfl (by decide)).conformsTo
  simp only [nameKinds, List.mem_cons, List.not_mem_nil, or_false] at hkind
  rcases hkind with rfl | rfl
  · obtain ⟨s, -, hs⟩ := identifier_text hnode
    exact ⟨hself.kind_eq, name, s, hname, hs⟩
  · have hform : fieldForm .stringLiteral "text" = some .text := rfl
    obtain ⟨s, -, hs⟩ := hnode.lookup_required hform (by decide)
    exact ⟨hself.kind_eq, name, s, hname, hs⟩

theorem moduleNode_of_nodeOf (v : Json) (h : NodeOf [.moduleDeclaration] v) : ModuleNode v := by
  induction v using Json.induct_lookup with
  | obj fields ih =>
    obtain ⟨_, ⟨⟩, hself⟩ := h.conformsTo_single
    have hnamed := namedModule_of_conformsTo hself h.2
    rcases nodeOf_lookup hself h.2 "body" rfl with hnull | hbody
    · exact .bare hnamed hnull
    · obtain ⟨body, heq, kind, hkind, hinner⟩ := hbody.conformsTo
      simp only [bodyKinds, List.mem_cons, List.not_mem_nil, or_false] at hkind
      rcases hkind with rfl | rfl
      · obtain ⟨statements, hstatements⟩ := nodes_required hinner "statements" rfl (by decide)
        exact .block hnamed heq hinner.kind_eq hstatements
      · refine .nested hnamed (ih "body" ⟨?_, hbody.2⟩)
        exact ⟨body, heq, _, List.mem_cons_self .., hinner.kind_eq⟩
  | _ => obtain ⟨⟨_, h, -⟩, -⟩ := h; cases h

theorem bindingsNode_of_nodeOf {v : Json} (h : NodeOf [.namespaceImport, .namedImports] v) :
    BindingsNode v := by
  obtain ⟨fields, rfl, kind, hkind, hself⟩ := h.conformsTo
  simp only [List.mem_cons, List.not_mem_nil, or_false] at hkind
  rcases hkind with rfl | rfl
  · exact .whole hself.kind_eq
  · obtain ⟨elements, helements⟩ := nodes_required hself "elements" rfl (by decide)
    exact .listed hself.kind_eq helements

/-- What the schema says of the fields that hold lists. -/
theorem fieldForm_listKeys {kind : SyntaxKind} {key : String} {form : FieldForm}
    (hkey : key ∈ listKeys) (hform : fieldForm kind key = some form) :
    form = .nodesOrNull ∨ ∃ kinds, form = .nodes kinds := by
  simp only [listKeys, List.mem_cons, List.not_mem_nil, or_false] at hkey
  rcases hkey with rfl | rfl | rfl | rfl | rfl | rfl | rfl | rfl | rfl
  case inr.inr.inr.inr.inr.inr.inl =>
    obtain rfl : elementsForm kind = form := Option.some.inj hform
    unfold elementsForm
    split
    · exact .inl rfl
    · exact .inr ⟨_, rfl⟩
    · exact .inr ⟨_, rfl⟩
  all_goals
    cases hform
    first | exact .inl rfl | exact .inr ⟨_, rfl⟩

/-- **An object that keeps to the schema throughout is as a reader of trees expects it.** -/
theorem wellFormed_of_conforms {fields : Fields} (h : (Json.obj fields).EachObject Conforms) :
    WellFormed fields := by
  obtain ⟨⟨kind, hself⟩, -⟩ := Json.eachObject_obj.mp h
  have hinteger : ∀ key, fieldForm kind key = some .integer → key ∈ requiredKeys kind →
      ∃ n, lookup key fields = .int n := fun key hform hkey => hself.lookup_required hform hkey
  refine ⟨⟨kind, hself.kind_eq⟩, fun key hkey => ?_, fun f hf => ?_, fun f hf hkey => ?_,
    fun hkind => ?_, fun hkind => ?_, ?_, fun hkind => ?_⟩
  · have hrequired : key ∈ requiredKeys kind := List.mem_append_left _ hkey
    simp only [List.mem_cons, List.not_mem_nil, or_false] at hkey
    rcases hkey with rfl | rfl | rfl <;> exact hinteger _ rfl hrequired
  · obtain ⟨form, -, hfits⟩ := hself.fits f hf
    exact hfits.ne_null
  · obtain ⟨form, hform, hfits⟩ := hself.fits f hf
    rcases fieldForm_listKeys hkey hform with rfl | ⟨kinds, rfl⟩
    · obtain ⟨vs, hvs, -⟩ := hfits
      exact ⟨vs, hvs⟩
    · obtain ⟨vs, hvs, -⟩ := hfits
      exact ⟨vs, hvs⟩
  · obtain rfl := hself.kind_unique hkind
    exact identifier_text hself
  · obtain rfl := hself.kind_unique hkind
    exact moduleNode_of_nodeOf _ ⟨⟨fields, rfl, _, List.mem_cons_self .., hkind⟩, h⟩
  · exact (nodeOf_lookup hself h "typeName" rfl).imp_right (nameNode_of_nodeOf _)
  · exact (nodeOf_lookup hself h "namedBindings" rfl).imp_right bindingsNode_of_nodeOf

theorem eachObject_wellFormed {v : Json} (h : v.EachObject Conforms) : v.EachObject WellFormed := by
  induction v using Json.induct with
  | arr vs ih =>
    exact Json.eachObject_arr.mpr fun v hv => ih v hv (Json.eachObject_arr.mp h v hv)
  | obj fields ih =>
    refine Json.eachObject_obj.mpr ⟨wellFormed_of_conforms h, fun f hf => ?_⟩
    exact ih f hf ((Json.eachObject_obj.mp h).2 f hf)
  | null => exact Json.eachObject_null
  | bool b => exact Json.eachObject_bool b
  | int n => exact Json.eachObject_int n
  | real x => exact Json.eachObject_real x
  | str s => exact Json.eachObject_str s

/-! ## Through links -/

section Linked

variable {enclosing : Option Json} {fields : Fields}

theorem linkUnder_eq_null {v : Json} : linkUnder enclosing v = .null ↔ v = .null := by
  cases v <;> simp [linkUnder]

theorem lookup_linked_null {key : String} (hkey : key ≠ "parent") :
    lookup key (linked enclosing fields) = .null ↔ lookup key fields = .null := by
  rw [lookup_linked hkey, linkUnder_eq_null]

theorem ofKind_linked {kind : SyntaxKind} :
    OfKind kind (linked enclosing fields) ↔ OfKind kind fields :=
  lookup_linked_int (by decide)

/-- A text under a field is left alone. -/
theorem lookup_linked_str {key : String} (hkey : key ≠ "parent") {s : String}
    (h : lookup key fields = .str s) : lookup key (linked enclosing fields) = .str s := by
  rw [lookup_linked hkey, h]
  rfl

/-- An object under a field is linked in its turn. -/
theorem lookup_linked_obj (enclosing : Option Json) {key : String} (hkey : key ≠ "parent")
    {inner : Fields} (h : lookup key fields = .obj inner) :
    ∃ around, lookup key (linked enclosing fields) = .obj (linked around inner) := by
  rw [lookup_linked hkey, h, linkUnder_obj]
  exact ⟨_, rfl⟩

/-- A list under a field stays one. -/
theorem lookup_linked_arr (enclosing : Option Json) {key : String} (hkey : key ≠ "parent")
    {vs : List Json} (h : lookup key fields = .arr vs) :
    ∃ ws, lookup key (linked enclosing fields) = .arr ws := by
  rw [lookup_linked hkey, h]
  exact ⟨_, rfl⟩

theorem NameNode.link {v : Json} (h : NameNode v) :
    ∀ enclosing, NameNode (linkUnder enclosing v) := by
  induction h with
  | identifier hkind =>
    intro enclosing
    rw [linkUnder_obj]
    exact .identifier (ofKind_linked.mpr hkind)
  | qualified hkind _ hright hidentifier ih =>
    intro enclosing
    obtain ⟨around, hright'⟩ := lookup_linked_obj enclosing (by decide) hright
    rw [linkUnder_obj]
    refine .qualified (ofKind_linked.mpr hkind) ?_ hright' (ofKind_linked.mpr hidentifier)
    rw [lookup_linked (by decide)]
    exact ih _

theorem NamedModule.link (h : NamedModule fields) : NamedModule (linked enclosing fields) := by
  obtain ⟨name, text, hname, htext⟩ := h.name
  obtain ⟨around, hname'⟩ := lookup_linked_obj enclosing (by decide) hname
  exact ⟨ofKind_linked.mpr h.kind, _, text, hname', lookup_linked_str (by decide) htext⟩

theorem ModuleNode.link {v : Json} (h : ModuleNode v) :
    ∀ enclosing, ModuleNode (linkUnder enclosing v) := by
  induction h with
  | bare hnamed hbody =>
    intro enclosing
    rw [linkUnder_obj]
    exact .bare hnamed.link ((lookup_linked_null (by decide)).mpr hbody)
  | block hnamed hbody hkind hstatements =>
    intro enclosing
    obtain ⟨around, hbody'⟩ := lookup_linked_obj enclosing (by decide) hbody
    obtain ⟨statements, hstatements'⟩ :=
      lookup_linked_arr around (by decide) hstatements
    rw [linkUnder_obj]
    exact .block hnamed.link hbody' (ofKind_linked.mpr hkind) hstatements'
  | nested hnamed _ ih =>
    intro enclosing
    rw [linkUnder_obj]
    refine .nested hnamed.link ?_
    rw [lookup_linked (by decide)]
    exact ih _

theorem BindingsNode.link {v : Json} (h : BindingsNode v) (enclosing : Option Json) :
    BindingsNode (linkUnder enclosing v) := by
  cases h with
  | whole hkind =>
    rw [linkUnder_obj]
    exact .whole (ofKind_linked.mpr hkind)
  | listed hkind helements =>
    obtain ⟨elements, helements'⟩ :=
      lookup_linked_arr enclosing (by decide) helements
    rw [linkUnder_obj]
    exact .listed (ofKind_linked.mpr hkind) helements'

/-- **A link takes nothing away.** -/
theorem WellFormed.link (around : Option Fields) (hfree : Linkless fields) (h : WellFormed fields) :
    WellFormed (linked (around.map .obj) fields) := by
  refine ⟨h.kind.imp fun _ => ofKind_linked.mpr, fun key hkey => ?_, fun f hf => ?_,
    fun f hf hkey => ?_, fun hkind => ?_, fun hkind => ?_, ?_, fun hkind => ?_⟩
  · obtain ⟨n, hn⟩ := h.integers key hkey
    have hne : key ≠ "parent" := by
      rintro rfl
      exact absurd hkey (by decide)
    exact ⟨n, (lookup_linked_int hne).mpr hn⟩
  · rcases mem_linked hfree hf with ⟨-, henclosing⟩ | ⟨g, hg, rfl⟩
    · obtain ⟨o, -, ho⟩ := Option.map_eq_some_iff.mp henclosing
      rw [← ho]
      exact Json.noConfusion
    · intro hnull
      exact h.present g hg (linkUnder_eq_null.mp hnull)
  · rcases mem_linked hfree hf with ⟨hparent, -⟩ | ⟨g, hg, rfl⟩
    · rw [hparent] at hkey
      exact absurd hkey (by decide)
    · obtain ⟨vs, hvs⟩ := h.lists g hg hkey
      exact ⟨_, by rw [hvs, linkUnder]⟩
  · obtain ⟨s, hne, hs⟩ := h.text (ofKind_linked.mp hkind)
    exact ⟨s, hne, lookup_linked_str (by decide) hs⟩
  · rw [← linkUnder_obj]
    exact (h.module (ofKind_linked.mp hkind)).link _
  · refine h.typeName.imp (lookup_linked_null (by decide)).mpr fun hname => ?_
    rw [lookup_linked (by decide)]
    exact hname.link _
  · refine (h.bindings (ofKind_linked.mp hkind)).imp (lookup_linked_null (by decide)).mpr
      fun hbindings => ?_
    rw [lookup_linked (by decide)]
    exact hbindings.link _

end Linked

/-! ## The tree of a file -/

/-- **A built tree can be relied on.** Whatever the concrete tree is, either a text in it cannot be
decoded, or the file has a tree: the node of a file, in which every object, at any depth and also
under a `parent`, has an integer for its kind that stands for one, integers for its range and its
flags, and no field that is null. Statements, members, parameters and whatever else is listed are
lists wherever they are there; an identifier has a text that is not empty; a module has a name with
a text and, if it has a body, that is a block of statements or again such a module; the name of a
type is an identifier or a qualified one whose right side is an identifier and whose left side is
again such a name; and what an import binds is a whole module or a list of names. -/
theorem build_wellFormed (source : Source) (fileName : Option String) (tree : SourceTree) :
    (build source fileName tree).result = .error .notUtf8 ∨
      ∃ fields, (build source fileName tree).result = .ok (.obj fields) ∧
        OfKind .sourceFile fields ∧ (Json.obj fields).EachObject WellFormed := by
  refine (build_each source fileName tree (fun around _ => WellFormed.link around) ?_).imp_right ?_
  · exact (nodeOf_fileNode source fileName tree).mono fun _ hnode => eachObject_wellFormed hnode.2
  · rintro ⟨fields, hfile, hbuild, hall⟩
    obtain ⟨_, ⟨⟩, hself⟩ := (nodeOf_fileNode source fileName tree _ hfile).conformsTo_single
    exact ⟨_, hbuild, ofKind_linked.mpr hself.kind_eq, hall⟩

end DeclCatalogue.Tree
