import DeclCatalogue.Proofs.Json.Objects
import DeclCatalogue.Tree.Node

/-!
# The schema of built trees

Which fields a node of each kind may have, and what may stand under them. `fieldForm` is the schema
as data, `requiredKeys` the fields that a kind never goes without, and `Conforms` says of the fields
of one object that they keep to both. A tree keeps to the schema if every object in it does.

The schema is closed: a field that it does not name is not there. What it says of a field is said
of the value itself and of the kind of an object under it, but not of what is further down, for
which the object answers itself. `nodeOf_flagged` is how a node is shown to keep to the schema:
field by field, in the order in which they are written down.
-/

namespace DeclCatalogue.Tree

open Json (lookup EachObject)

/-- What may stand as the value of a field. -/
inductive FieldForm where
  | integer
  | truth
  /-- A text that stands for characters. -/
  | text
  /-- A text of at least one character that stands for characters. -/
  | name
  /-- Any text, as a path may be. -/
  | path
  /-- A node of one of the kinds. -/
  | node (kinds : List SyntaxKind)
  /-- A list of nodes of the kinds. -/
  | nodes (kinds : List SyntaxKind)
  /-- A list of nodes in which some may be missing. -/
  | nodesOrNull

/-- An object of one of the kinds. -/
def IsNode (kinds : List SyntaxKind) (v : Json) : Prop :=
  ∃ fields, v = .obj fields ∧ ∃ k ∈ kinds, lookup "kind" fields = .int k.code

/-- A value has a form. -/
def FieldForm.Fits : FieldForm → Json → Prop
  | integer, v => ∃ n, v = .int n
  | truth, v => ∃ b, v = .bool b
  | text, v => ∃ s, Text.isWellFormed s = true ∧ v = .str s
  | name, v => ∃ s, s ≠ "" ∧ Text.isWellFormed s = true ∧ v = .str s
  | path, v => ∃ s, v = .str s
  | node kinds, v => IsNode kinds v
  | nodes kinds, v => ∃ vs, v = .arr vs ∧ ∀ u ∈ vs, IsNode kinds u
  | nodesOrNull, v => ∃ vs, v = .arr vs ∧ ∀ u ∈ vs, u = .null ∨ IsNode SyntaxKind.all u

/-- The kinds of node that stand as the name of a node. -/
def nameKinds : SyntaxKind → List SyntaxKind
  | .moduleDeclaration => [.identifier, .stringLiteral]
  | .parameter | .variableDeclaration =>
    [.identifier, .objectBindingPattern, .arrayBindingPattern, .unknown]
  | .propertySignature | .methodSignature | .propertyDeclaration | .methodDeclaration
  | .constructor => [.identifier, .stringLiteral, .numericLiteral, .unknown]
  | _ => [.identifier]

/-- The kinds of node that stand as the body of a node. -/
def bodyKinds : SyntaxKind → List SyntaxKind
  | .moduleDeclaration => [.moduleBlock, .moduleDeclaration]
  | _ => [.block]

/-- The form of the elements of a node. -/
def elementsForm : SyntaxKind → FieldForm
  | .tupleType => .nodesOrNull
  | .namedImports => .nodes [.importSpecifier]
  | _ => .nodes [.exportSpecifier]

/-- The form of the value of a field of a node; none for a field that no node has. -/
def fieldForm (kind : SyntaxKind) (key : String) : Option FieldForm :=
  match key with
  | "kind" | "pos" | "end" | "flags" => some .integer
  | "isTypeOnly" | "isExportEquals" => some .truth
  | "text" => some (if kind = .identifier then .name else .text)
  | "fileName" => some .path
  | "name" => some (.node (nameKinds kind))
  | "left" | "typeName" => some (.node [.identifier, .qualifiedName])
  | "right" | "propertyName" => some (.node [.identifier])
  | "moduleSpecifier" => some (.node [.stringLiteral])
  | "body" => some (.node (bodyKinds kind))
  | "declarationList" => some (.node [.variableDeclarationList])
  | "importClause" => some (.node [.importClause])
  | "namedBindings" => some (.node [.namespaceImport, .namedImports])
  | "exportClause" => some (.node [.namedExports])
  | "questionToken" => some (.node [.questionToken])
  | "type" | "constraint" | "elementType" | "literal" | "initializer" | "expression" =>
    some (.node SyntaxKind.all)
  | "modifiers" | "statements" | "members" | "typeParameters" | "parameters" =>
    some (.nodes SyntaxKind.all)
  | "declarations" => some (.nodes [.variableDeclaration])
  | "elements" => some (elementsForm kind)
  | "types" | "typeArguments" => some .nodesOrNull
  | _ => none

/-- The fields that a kind of node never goes without, beside its range and flags. -/
def ownKeys : SyntaxKind → List String
  | .identifier | .stringLiteral | .numericLiteral => ["text"]
  | .qualifiedName => ["left", "right"]
  | .block | .moduleBlock | .sourceFile => ["statements"]
  | .moduleDeclaration => ["name"]
  | .variableStatement => ["declarationList"]
  | .variableDeclarationList => ["declarations"]
  | .namedImports | .namedExports => ["elements"]
  | _ => []

/-- The fields that a node never goes without. -/
def requiredKeys (kind : SyntaxKind) : List String :=
  ["pos", "end", "flags"] ++ ownKeys kind

/-- The fields of an object keep to the schema of a kind. -/
structure ConformsTo (kind : SyntaxKind) (fields : Fields) : Prop where
  kind_eq : lookup "kind" fields = .int kind.code
  fits : ∀ f ∈ fields, ∃ form, fieldForm kind f.1 = some form ∧ form.Fits f.2
  required : ∀ key ∈ requiredKeys kind, lookup key fields ≠ .null

/-- The fields of an object keep to the schema of their kind. -/
def Conforms (fields : Fields) : Prop :=
  ∃ kind, ConformsTo kind fields

/-! ## Reading a node by the schema -/

theorem FieldForm.Fits.ne_null {form : FieldForm} {v : Json} (h : form.Fits v) : v ≠ .null := by
  rintro rfl
  cases form with
  | integer => obtain ⟨_, h⟩ := h; cases h
  | truth => obtain ⟨_, h⟩ := h; cases h
  | text => obtain ⟨_, -, h⟩ := h; cases h
  | name => obtain ⟨_, -, -, h⟩ := h; cases h
  | path => obtain ⟨_, h⟩ := h; cases h
  | node kinds => obtain ⟨_, h, -⟩ := h; cases h
  | nodes kinds => obtain ⟨_, h, -⟩ := h; cases h
  | nodesOrNull => obtain ⟨_, h, -⟩ := h; cases h

/-- A field is missing, or its value has the form that the schema gives it. -/
theorem ConformsTo.lookup {kind : SyntaxKind} {fields : Fields} (h : ConformsTo kind fields)
    {key : String} {form : FieldForm} (hform : fieldForm kind key = some form) :
    lookup key fields = .null ∨ form.Fits (lookup key fields) := by
  rcases Json.lookup_eq_null_or_mem key fields with hnull | hmem
  · exact .inl hnull
  · obtain ⟨form', hform', hfits⟩ := h.fits _ hmem
    rw [hform] at hform'
    rw [Option.some.inj hform']
    exact .inr hfits

/-- A required field has a value of its form. -/
theorem ConformsTo.lookup_required {kind : SyntaxKind} {fields : Fields}
    (h : ConformsTo kind fields) {key : String} {form : FieldForm}
    (hform : fieldForm kind key = some form) (hkey : key ∈ requiredKeys kind) :
    form.Fits (Json.lookup key fields) := by
  rcases h.lookup hform with hnull | hfits
  · exact absurd hnull (h.required key hkey)
  · exact hfits

/-- A field that the schema does not name is missing. -/
theorem ConformsTo.lookup_of_none {kind : SyntaxKind} {fields : Fields}
    (h : ConformsTo kind fields) {key : String} (hform : fieldForm kind key = none) :
    Json.lookup key fields = .null := by
  rcases Json.lookup_eq_null_or_mem key fields with hnull | hmem
  · exact hnull
  · obtain ⟨form, hsome, -⟩ := h.fits _ hmem
    rw [hform] at hsome
    cases hsome

/-- A node knows its kind. -/
theorem ConformsTo.kind_unique {j k : SyntaxKind} {fields : Fields} (hj : ConformsTo j fields)
    (hk : Json.lookup "kind" fields = .int k.code) : j = k := by
  have hcode : (j.code : Int) = k.code := Json.int.inj (hj.kind_eq.symm.trans hk)
  exact SyntaxKind.code_injective (Int.ofNat.inj hcode)

/-! ## Nodes throughout -/

/-- A node of one of the kinds, all of whose objects keep to the schema. -/
def NodeOf (kinds : List SyntaxKind) (v : Json) : Prop :=
  IsNode kinds v ∧ v.EachObject Conforms

theorem IsNode.mono {kinds others : List SyntaxKind} (hsub : ∀ k ∈ kinds, k ∈ others) {v : Json}
    (h : IsNode kinds v) : IsNode others v := by
  obtain ⟨fields, hv, k, hk, hkind⟩ := h
  exact ⟨fields, hv, k, hsub k hk, hkind⟩

theorem NodeOf.mono {kinds others : List SyntaxKind} (hsub : ∀ k ∈ kinds, k ∈ others) {v : Json}
    (h : NodeOf kinds v) : NodeOf others v :=
  ⟨h.1.mono hsub, h.2⟩

/-- A node of some kind. -/
abbrev AnyNode : Json → Prop := NodeOf SyntaxKind.all

theorem NodeOf.any {kinds : List SyntaxKind} {v : Json} (h : NodeOf kinds v) : AnyNode v :=
  h.mono fun k _ => SyntaxKind.mem_all k

/-- A field that may be missing has, if it is there, a value of its form, and all objects in the
value keep to the schema. -/
def FieldOk (kind : SyntaxKind) (key : String) (value : Option Json) : Prop :=
  ∀ v, value = some v →
    (∃ form, fieldForm kind key = some form ∧ form.Fits v) ∧ v.EachObject Conforms

/-- Fields that may be missing have values of their forms. -/
def FieldsOk (kind : SyntaxKind) : List (String × Option Json) → Prop
  | [] => True
  | (key, value) :: rest => FieldOk kind key value ∧ FieldsOk kind rest

theorem FieldsOk.of_mem {kind : SyntaxKind} {fields : List (String × Option Json)}
    (h : FieldsOk kind fields) {key : String} {v : Json} (hmem : (key, some v) ∈ fields) :
    (∃ form, fieldForm kind key = some form ∧ form.Fits v) ∧ v.EachObject Conforms := by
  induction fields with
  | nil => cases hmem
  | cons f rest ih =>
    obtain ⟨hf, hrest⟩ := h
    rcases List.mem_cons.mp hmem with rfl | hmem
    · exact hf v rfl
    · exact ih hrest hmem

theorem mem_present {fields : List (String × Option Json)} {f : String × Json} :
    f ∈ present fields ↔ (f.1, some f.2) ∈ fields := by
  unfold present
  rw [List.mem_filterMap]
  constructor
  · rintro ⟨⟨key, value⟩, hmem, hf⟩
    obtain ⟨v, rfl, rfl⟩ := Option.map_eq_some_iff.mp hf
    exact hmem
  · intro hmem
    exact ⟨(f.1, some f.2), hmem, rfl⟩

theorem lookup_ne_null_of_mem {fields : Fields} {key : String} {v : Json} (hmem : (key, v) ∈ fields)
    (hne : ∀ f ∈ fields, f.2 ≠ .null) : lookup key fields ≠ .null := by
  induction fields with
  | nil => cases hmem
  | cons f rest ih =>
    rw [Json.lookup_cons]
    split
    · exact hne f (List.mem_cons_self ..)
    next hkey =>
      refine ih ?_ fun g hg => hne g (List.mem_cons_of_mem _ hg)
      rcases List.mem_cons.mp hmem with rfl | hrest
      · exact absurd rfl hkey
      · exact hrest

/-- The kind, the range and the flags of a node keep to the schema of any kind. -/
private theorem fits_frame {kind : SyntaxKind} {a b c d : Int} {f : String × Json}
    (h : f ∈ [("kind", Json.int a), ("pos", .int b), ("end", .int c), ("flags", .int d)]) :
    (∃ form, fieldForm kind f.1 = some form ∧ form.Fits f.2) ∧ f.2.EachObject Conforms := by
  simp only [List.mem_cons, List.not_mem_nil, or_false] at h
  rcases h with rfl | rfl | rfl | rfl
  all_goals exact ⟨⟨.integer, rfl, _, rfl⟩, Json.eachObject_int _⟩

/-- An object with a kind, a range, flags and fields that keep to the schema of the kind. -/
private theorem nodeOf_frame {kind : SyntaxKind} {start stop flags : Int}
    (fields : List (String × Option Json)) (hfields : FieldsOk kind fields)
    (hown : ∀ key ∈ ownKeys kind, ∃ v, (key, some v) ∈ fields) :
    NodeOf [kind] (.obj ([("kind", .int kind.code), ("pos", .int start), ("end", .int stop),
      ("flags", .int flags)] ++ present fields)) := by
  have hall : ∀ f ∈ [("kind", Json.int kind.code), ("pos", .int start), ("end", .int stop),
      ("flags", .int flags)] ++ present fields,
      (∃ form, fieldForm kind f.1 = some form ∧ form.Fits f.2) ∧ f.2.EachObject Conforms := by
    intro f hf
    rcases List.mem_append.mp hf with hframe | hpresent
    · exact fits_frame hframe
    · exact hfields.of_mem (mem_present.mp hpresent)
  refine ⟨⟨_, rfl, kind, List.mem_singleton.mpr rfl, rfl⟩, ?_⟩
  refine Json.eachObject_obj.mpr ⟨⟨kind, rfl, fun f hf => (hall f hf).1, ?_⟩,
    fun f hf => (hall f hf).2⟩
  intro key hkey
  rcases List.mem_append.mp hkey with hrange | hkey
  · simp only [List.mem_cons, List.not_mem_nil, or_false] at hrange
    rcases hrange with rfl | rfl | rfl
    all_goals exact fun h => by cases h
  · obtain ⟨v, hv⟩ := hown key hkey
    refine lookup_ne_null_of_mem (v := v) ?_ fun f hf => ?_
    · exact List.mem_append_right _ (mem_present.mpr hv)
    · obtain ⟨_, _, hfits⟩ := (hall f hf).1
      exact hfits.ne_null

/-- **A node keeps to the schema field by field,** if none that its kind needs is missing. -/
theorem nodeOf_flagged {kind : SyntaxKind} {head : CstHead} {flags : Nat}
    {fields : List (String × Option Json)} (hfields : FieldsOk kind fields)
    (hown : ∀ key ∈ ownKeys kind, ∃ v, (key, some v) ∈ fields) :
    NodeOf [kind] (flagged kind head flags fields) :=
  nodeOf_frame fields hfields hown

/-- A node of a kind that needs no field of its own. -/
theorem nodeOf_make {kind : SyntaxKind} {head : CstHead} {fields : List (String × Option Json)}
    (hfields : FieldsOk kind fields) (hown : ∀ key ∈ ownKeys kind, ∃ v, (key, some v) ∈ fields) :
    NodeOf [kind] (make kind head fields) :=
  nodeOf_frame fields hfields hown

theorem nodeOf_token {kind : SyntaxKind} (hown : ownKeys kind = []) :
    NodeOf [kind] (token kind) := by
  refine nodeOf_frame [] trivial fun key hkey => ?_
  rw [hown] at hkey
  cases hkey

/-! ## Single fields -/

section FieldOk

variable {kind : SyntaxKind} {key : String}

theorem fieldOk_none : FieldOk kind key none :=
  fun _ h => by cases h

theorem fieldOk_text (hform : fieldForm kind key = some .text) {s : String}
    (hs : Text.isWellFormed s = true) : FieldOk kind key (some (.str s)) := by
  intro v h
  rw [← Option.some.inj h]
  exact ⟨⟨.text, hform, s, hs, rfl⟩, Json.eachObject_str s⟩

theorem fieldOk_name (hform : fieldForm kind key = some .name) {s : String} (hne : s ≠ "")
    (hs : Text.isWellFormed s = true) : FieldOk kind key (some (.str s)) := by
  intro v h
  rw [← Option.some.inj h]
  exact ⟨⟨.name, hform, s, hne, hs, rfl⟩, Json.eachObject_str s⟩

theorem fieldOk_path (hform : fieldForm kind key = some .path) (s : String) :
    FieldOk kind key (some (.str s)) := by
  intro v h
  rw [← Option.some.inj h]
  exact ⟨⟨.path, hform, s, rfl⟩, Json.eachObject_str s⟩

theorem fieldOk_truth (hform : fieldForm kind key = some .truth) (p : Bool) :
    FieldOk kind key (if p then some (.bool true) else none) := by
  intro v h
  split at h
  · rw [← Option.some.inj h]
    exact ⟨⟨.truth, hform, true, rfl⟩, Json.eachObject_bool true⟩
  · cases h

/-- A node under a field. -/
theorem fieldOk_node {kinds : List SyntaxKind} (hform : fieldForm kind key = some (.node kinds))
    {value : Option Json} (h : ∀ v, value = some v → NodeOf kinds v) : FieldOk kind key value :=
  fun v hv => ⟨⟨.node kinds, hform, (h v hv).1⟩, (h v hv).2⟩

/-- A list of nodes under a field. -/
theorem fieldOk_nodes {kinds : List SyntaxKind} (hform : fieldForm kind key = some (.nodes kinds))
    {vs : List Json} (h : ∀ v ∈ vs, NodeOf kinds v) : FieldOk kind key (some (.arr vs)) := by
  intro v hv
  rw [← Option.some.inj hv]
  exact ⟨⟨.nodes kinds, hform, vs, rfl, fun u hu => (h u hu).1⟩,
    Json.eachObject_arr.mpr fun u hu => (h u hu).2⟩

/-- A list of nodes, some of them missing, under a field. -/
theorem fieldOk_nodesOrNull (hform : fieldForm kind key = some .nodesOrNull)
    {nodes : List (Option Json)} (h : ∀ n ∈ nodes, ∀ v, n = some v → AnyNode v) :
    FieldOk kind key (some (listOf nodes)) := by
  intro v hv
  rw [← Option.some.inj hv]
  refine ⟨⟨.nodesOrNull, hform, _, rfl, fun u hu => ?_⟩, Json.eachObject_arr.mpr fun u hu => ?_⟩
  · obtain ⟨n, hn, rfl⟩ := List.mem_map.mp hu
    cases n with
    | none => exact .inl rfl
    | some v => exact .inr (h _ hn v rfl).1
  · obtain ⟨n, hn, rfl⟩ := List.mem_map.mp hu
    cases n with
    | none => exact Json.eachObject_null
    | some v => exact (h _ hn v rfl).2

end FieldOk

end DeclCatalogue.Tree
