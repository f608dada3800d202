import DeclCatalogue.Node.Modifier
import DeclCatalogue.Node.Name
import DeclCatalogue.Record.Basic
import DeclCatalogue.Proofs.Node.Modifier
import DeclCatalogue.Proofs.Node.Parent

/-!
# What is read off a node

The collectors strip a node and then look at a handful of things in it: names, modifiers, the types
of variables, the names of an import. `View.of` reads all of them off the node as it is, before it
is stripped, with names that are names and lists that are lists; a node that keeps to the schema of
built trees has nothing else to show.

The lemmas of this module say that stripping does not get in the way: what is found in the stripped
node is what the view holds (`identifierText_view`, `entityName_view`, `declaredName_view`,
`modifiers_view`, `kind_view`).
-/

namespace DeclCatalogue

namespace Node

open Json (lookup EachObject)

/-! ## Names -/

/-- The text that a value is, if there is a character in it. -/
def asText? : Json → Option String
  | .str s => if s = "" then none else some s
  | _ => none

/-- The name that a value is. -/
def asName? : Json → Option Name
  | .str s => if h : s ≠ "" ∧ Text.isWellFormed s = true then some ⟨s, h⟩ else none
  | _ => none

/-- The text of an identifier or a literal. -/
def ownText? (v : Json) : Option String :=
  (identifierText v).bind asText?

/-- The text of an identifier, a qualified name or a property access. -/
def fullText? (v : Json) : Option String :=
  (entityName v).bind asText?

/-- The text that a declaration resolves to. -/
def resolvedText? (fields : Fields) : Option String :=
  (declaredName? fields).bind asText?

/-- The name of an identifier or a literal. -/
def ownName? (v : Json) : Option Name :=
  (identifierText v).bind asName?

/-- The name of an identifier, a qualified name or a property access. -/
def fullName? (v : Json) : Option Name :=
  (entityName v).bind asName?

/-- The name that a declaration is recorded under. -/
def resolvedName? (fields : Fields) : Option Name :=
  (declaredName? fields).bind asName?

/-- A name as a value. -/
def nameText (name : Name) : Json := .str name

theorem asName?_nameText (name : Name) : asName? (nameText name) = some name := by
  unfold asName? nameText
  dsimp only
  rw [dif_pos name.property]

theorem asName?_eq_some {v : Json} {name : Name} : asName? v = some name ↔ v = nameText name := by
  refine ⟨fun h => ?_, fun h => by rw [h, asName?_nameText]⟩
  unfold asName? at h
  split at h
  · split at h
    · rw [← Option.some.inj h]
      rfl
    · cases h
  · cases h

/-- The name that a text is: the text itself. -/
theorem val_of_asName? {text : String} {name : Name} (h : asName? (.str text) = some name) :
    name.val = text :=
  (Json.str.inj (asName?_eq_some.mp h)).symm

theorem asText?_eq_some {v : Json} {text : String} :
    asText? v = some text ↔ text ≠ "" ∧ v = .str text := by
  unfold asText?
  constructor
  · intro h
    split at h
    · split at h
      · cases h
      next hne =>
        rw [← Option.some.inj h]
        exact ⟨hne, rfl⟩
    · cases h
  · rintro ⟨hne, rfl⟩
    exact if_neg hne

/-- A value is a name if its text is one. -/
theorem bind_asName? (value : Option Json) :
    value.bind asName? = (value.bind asText?).bind fun text => asName? (.str text) := by
  cases value with
  | none => rfl
  | some v =>
    rw [Option.bind_some, Option.bind_some]
    cases htext : asText? v with
    | some text =>
      rw [(asText?_eq_some.mp htext).2]
      rfl
    | none =>
      refine Option.eq_none_iff_forall_ne_some.mpr fun name hname => ?_
      rw [asText?_eq_some.mpr ⟨name.property.1, asName?_eq_some.mp hname⟩] at htext
      cases htext

/-- An identifier has the name that its text is. -/
theorem ownName?_of_ownText? {v : Json} {text : String} (h : ownText? v = asText? (.str text)) :
    ownName? v = asName? (.str text) := by
  have htext := bind_asName? (some (.str text))
  rw [Option.bind_some, Option.bind_some, ← h] at htext
  rw [htext]
  exact bind_asName? (identifierText v)

/-- An identifier with a text is called by it. -/
theorem identifierText_of_ownText? {v : Json} {text : String} (h : ownText? v = some text) :
    identifierText v = some (.str text) := by
  obtain ⟨value, hvalue, htext⟩ := Option.bind_eq_some_iff.mp h
  rw [hvalue, (asText?_eq_some.mp htext).2]

/-- A text of at least one character is a name if all of it stands for characters. -/
theorem asName?_eq_none {text : String} :
    asName? (.str text) = none ↔ text = "" ∨ Text.isWellFormed text = false := by
  unfold asName?
  dsimp only
  split
  next h => exact ⟨fun k => (by cases k), fun k => k.elim (absurd · h.1) (by simp [h.2])⟩
  next h =>
    refine ⟨fun _ => ?_, fun _ => rfl⟩
    rcases Classical.em (text = "") with hempty | hempty
    · exact .inl hempty
    · exact .inr (by simpa [hempty] using h)

/-- A value that, if it is there, is a text with a character in it. -/
def IsTextOrNone (value : Option Json) : Prop :=
  ∀ v, value = some v → ∃ s, s ≠ "" ∧ v = .str s

theorem IsTextOrNone.eq_map {value : Option Json} (h : IsTextOrNone value) :
    value = (value.bind asText?).map .str := by
  cases value with
  | none => rfl
  | some v =>
    obtain ⟨s, hs, rfl⟩ := h v rfl
    rw [Option.bind_some, asText?, if_neg hs]
    rfl

theorem isTextOrNone_none : IsTextOrNone none :=
  fun _ h => by cases h

theorem IsTextOrNone.orElse {a b : Option Json} (ha : IsTextOrNone a) (hb : IsTextOrNone b) :
    IsTextOrNone (a <|> b) := by
  cases a with
  | none => exact hb
  | some v => exact ha

theorem isTextOrNone_dotted (a b : Option Json) : IsTextOrNone (dotted a b) := by
  intro v hv
  unfold dotted at hv
  split at hv
  next left right =>
    -- the point between the two sides keeps the text from being empty
    have hne : left.display ++ "." ++ right.display ≠ "" := by
      intro h
      have hlength := congrArg String.length h
      rw [String.length_append, String.length_append] at hlength
      have hpoint : ".".length = 1 := by decide
      have hempty : "".length = 0 := by decide
      omega
    exact ⟨_, hne, (Option.some.inj hv).symm⟩
  next => cases hv

/-- A value that, if it is there, is a name. -/
def IsNameOrNone (value : Option Json) : Prop :=
  ∀ v, value = some v → ∃ name, v = nameText name

theorem IsNameOrNone.eq_map {value : Option Json} (h : IsNameOrNone value) :
    value = (value.bind asName?).map nameText := by
  cases value with
  | none => rfl
  | some v =>
    obtain ⟨name, rfl⟩ := h v rfl
    rw [Option.bind_some, asName?_nameText]
    rfl

theorem isNameOrNone_none : IsNameOrNone none :=
  fun _ h => by cases h

theorem IsNameOrNone.orElse {a b : Option Json} (ha : IsNameOrNone a) (hb : IsNameOrNone b) :
    IsNameOrNone (a <|> b) := by
  cases a with
  | none => exact hb
  | some v => exact ha

/-- The point between two names makes a name of them. -/
theorem IsNameOrNone.dotted {a b : Option Json} (ha : IsNameOrNone a) (hb : IsNameOrNone b) :
    IsNameOrNone (dotted a b) := by
  intro v hv
  obtain ⟨s, hs, rfl⟩ := isTextOrNone_dotted a b v hv
  unfold Node.dotted at hv
  split at hv
  next left right =>
    obtain ⟨first, rfl⟩ := ha left rfl
    obtain ⟨second, rfl⟩ := hb right rfl
    refine ⟨⟨s, hs, ?_⟩, rfl⟩
    have hpoint : Text.isWellFormed "." = true := by decide +kernel
    rw [← Json.str.inj (Option.some.inj hv), Text.isWellFormed_append, Text.isWellFormed_append,
      hpoint]
    simp [nameText, first.property.2, second.property.2]
  next => cases hv

/-- The fields of an object whose texts, where it has any, are texts. -/
def HasStringTexts (fields : Fields) : Prop :=
  (lookup "text" fields).MaybeText ∧ (lookup "escapedText" fields).MaybeText

instance : DecidablePred HasStringTexts := fun _ => inferInstanceAs (Decidable (_ ∧ _))

theorem HasStringTexts.hasPlainTexts {fields : Fields} (h : HasStringTexts fields) :
    HasPlainTexts fields := by
  have hplain : ∀ s : Option String, (Json.ofText? s).isKey = true := fun s => by cases s <;> rfl
  obtain ⟨⟨text, htext⟩, escaped, hescaped⟩ := h
  refine ⟨?_, ?_⟩
  · rw [htext]
    exact hplain text
  · rw [hescaped]
    exact hplain escaped

/-- Texts are texts after stripping as before. -/
theorem strip_hasStringTexts {table : KindTable} {v w : Json} (hstrip : strip table v = .ok w)
    (h : v.EachObject HasStringTexts) : w.EachObject HasStringTexts := by
  refine strip_eachObject (fun {fields out} hstrip hobject => ?_) v hstrip h
  obtain ⟨htext, hescaped⟩ := hobject.hasPlainTexts
  have hsame := lookup_strip_of_isKey hstrip (by decide) (by decide) htext
  have hsameEscaped := lookup_strip_of_isKey hstrip (by decide) (by decide) hescaped
  refine ⟨?_, ?_⟩
  · rw [hsame]
    exact hobject.1
  · rw [hsameEscaped]
    exact hobject.2

/-- The fields of an object whose texts, where it has any, are texts that stand for characters. -/
def HasNameTexts (fields : Fields) : Prop :=
  HasStringTexts fields ∧ (∀ s, lookup "text" fields = .str s → Text.isWellFormed s = true) ∧
    ∀ s, lookup "escapedText" fields = .str s → Text.isWellFormed s = true

/-- The texts of nodes that keep to the schema are texts that stand for characters. -/
theorem hasNameTexts_of_conforms {v : Json} (h : v.EachObject Tree.Conforms) :
    v.EachObject HasNameTexts := by
  refine h.mono fun fields ⟨kind, hfields⟩ => ?_
  have hescaped : lookup "escapedText" fields = .null := hfields.lookup_of_none rfl
  have htext : lookup "text" fields = .null ∨
      ∃ s, Text.isWellFormed s = true ∧ lookup "text" fields = .str s := by
    refine (Json.lookup_eq_null_or_mem "text" fields).imp_right fun hmem => ?_
    obtain ⟨form, hform, hfits⟩ := hfields.fits _ hmem
    have hform : (if kind = .identifier then Tree.FieldForm.name else .text) = form :=
      Option.some.inj hform
    rw [← hform] at hfits
    split at hfits
    · obtain ⟨s, -, hformed, hs⟩ := hfits
      exact ⟨s, hformed, hs⟩
    · exact hfits
  refine ⟨⟨?_, none, hescaped⟩, fun s hs => ?_, fun s hs => by rw [hescaped] at hs; cases hs⟩
  · rcases htext with hnull | ⟨s, -, hs⟩
    · exact ⟨none, hnull⟩
    · exact ⟨some s, hs⟩
  · rcases htext with hnull | ⟨t, hformed, ht⟩
    · rw [hnull] at hs
      cases hs
    · rw [← Json.str.inj (ht.symm.trans hs)]
      exact hformed

/-- A text that counts as present has a character in it. -/
theorem isTextOrNone_present (s : Option String) : IsTextOrNone (Json.ofText? s).present? := by
  intro v hv
  cases s with
  | none => cases hv
  | some s =>
    unfold Json.present? at hv
    split at hv
    next htruthy =>
      have hne : s ≠ "" := by simpa [Json.truthy, Json.ofText?] using htruthy
      exact ⟨s, hne, (Option.some.inj hv).symm⟩
    next => cases hv

theorem isTextOrNone_identifierText {v : Json} (h : v.EachObject HasStringTexts) :
    IsTextOrNone (identifierText v) := by
  cases v with
  | obj fields =>
    obtain ⟨⟨text, htext⟩, escaped, hescaped⟩ := (Json.eachObject_obj.mp h).1
    show IsTextOrNone ((lookup "text" fields).present? <|> (lookup "escapedText" fields).present?)
    rw [htext, hescaped]
    exact (isTextOrNone_present text).orElse (isTextOrNone_present escaped)
  | _ => exact isTextOrNone_none

theorem isTextOrNone_entityName {v : Json} (h : v.EachObject HasStringTexts) :
    IsTextOrNone (entityName v) := by
  cases v with
  | obj fields =>
    rw [entityName_obj]
    exact (isTextOrNone_identifierText h).orElse
      ((isTextOrNone_dotted _ _).orElse (isTextOrNone_dotted _ _))
  | _ => exact isTextOrNone_none

theorem isNameOrNone_identifierText {v : Json} (h : v.EachObject HasNameTexts) :
    IsNameOrNone (identifierText v) := by
  intro u hu
  obtain ⟨s, hs, rfl⟩ := isTextOrNone_identifierText (h.mono fun _ ho => ho.1) u hu
  refine ⟨⟨s, hs, ?_⟩, rfl⟩
  cases v with
  | obj fields =>
    obtain ⟨-, htext, hescaped⟩ := (Json.eachObject_obj.mp h).1
    have hpresent : ∀ {v : Json}, v.present? = some (.str s) → v = .str s := by
      intro v hv
      unfold Json.present? at hv
      split at hv
      · exact Option.some.inj hv
      · cases hv
    have hu : ((lookup "text" fields).present? <|> (lookup "escapedText" fields).present?) =
        some (.str s) := hu
    cases hfound : (lookup "text" fields).present? with
    | some v =>
      rw [hfound] at hu
      exact htext s (hpresent (hfound.trans hu))
    | none =>
      rw [hfound] at hu
      exact hescaped s (hpresent hu)
  | _ => cases hu

theorem isNameOrNone_entityName {v : Json} (h : v.EachObject HasNameTexts) :
    IsNameOrNone (entityName v) := by
  induction v using Json.induct with
  | obj fields ih =>
    have hsides : ∀ key, IsNameOrNone (entityName (lookup key fields)) := by
      intro key
      rcases Json.lookup_eq_null_or_mem key fields with hnull | hmem
      · rw [hnull]
        exact isNameOrNone_none
      · exact ih _ hmem (h.lookup key)
    rw [entityName_obj]
    exact (isNameOrNone_identifierText h).orElse
      (((hsides _).dotted (hsides _)).orElse ((hsides _).dotted (hsides _)))
  | _ => exact isNameOrNone_none

/-- The text of a stripped identifier is its own text. -/
theorem identifierText_text {table : KindTable} {v w : Json} (h : v.EachObject HasStringTexts)
    (hstrip : strip table v = .ok w) : identifierText w = (ownText? v).map .str := by
  rw [identifierText_strip hstrip (h.mono fun _ ho => ho.hasPlainTexts)]
  exact (isTextOrNone_identifierText h).eq_map

theorem identifierText_view {table : KindTable} {v w : Json} (h : v.EachObject Tree.Conforms)
    (hstrip : strip table v = .ok w) : identifierText w = (ownName? v).map nameText := by
  have hnames := hasNameTexts_of_conforms h
  rw [identifierText_strip hstrip (hnames.mono fun _ ho => ho.1.hasPlainTexts)]
  exact (isNameOrNone_identifierText hnames).eq_map

/-- The name of a stripped entity is its full name. -/
theorem entityName_view {table : KindTable} {v w : Json} (h : v.EachObject Tree.Conforms)
    (hstrip : strip table v = .ok w) : entityName w = (fullName? v).map nameText := by
  have hnames := hasNameTexts_of_conforms h
  rw [entityName_strip v hstrip (hnames.mono fun _ ho => ho.1.hasPlainTexts)]
  exact (isNameOrNone_entityName hnames).eq_map

/-! ## Fields -/

/-- A field of a stripped value is the stripped field. -/
theorem strip_field {table : KindTable} {v w : Json} (hstrip : strip table v = .ok w) {key : String}
    (hkey : isBookkeeping key = false) (hne : key ≠ "kind") :
    strip table (v.field key) = .ok (w.field key) := by
  cases v with
  | obj fields =>
    obtain ⟨_, out, -, -, rfl⟩ := strip_obj_ok hstrip
    exact strip_fields hstrip hkey hne
  | arr vs =>
    obtain ⟨ws, -, rfl⟩ := strip_arr_ok hstrip
    rfl
  | _ =>
    obtain rfl := Except.ok.inj hstrip
    rfl

theorem eachObject_field {P : Fields → Prop} {v : Json} (h : v.EachObject P) (key : String) :
    (v.field key).EachObject P := by
  cases v with
  | obj fields => exact h.lookup key
  | _ => exact Json.eachObject_null

/-- A declaration is called the same before and after stripping. -/
theorem declaredName_strip {table : KindTable} {fields out : Fields}
    (h : (Json.obj fields).EachObject HasPlainTexts)
    (hstrip : strip table (.obj fields) = .ok (.obj out)) :
    declaredName? out = declaredName? fields := by
  have hname := strip_fields hstrip isBookkeeping_name (by decide)
  have htype : strip table (lookup "type" fields) = .ok (lookup "type" out) :=
    strip_fields hstrip (by decide) (by decide)
  have htypeName : strip table ((lookup "type" fields).field "typeName") =
      .ok ((lookup "type" out).field "typeName") :=
    strip_field htype (by decide) (by decide)
  have hspecifier : strip table (lookup "moduleSpecifier" fields) =
      .ok (lookup "moduleSpecifier" out) :=
    strip_fields hstrip (by decide) (by decide)
  unfold declaredName?
  rw [identifierText_strip hname (h.lookup _),
    entityName_strip _ htypeName (eachObject_field (h.lookup _) _),
    identifierText_strip hspecifier (h.lookup _)]

/-- The name of a stripped declaration is the text that it resolves to. -/
theorem declaredName_text {table : KindTable} {fields out : Fields}
    (h : (Json.obj fields).EachObject HasStringTexts)
    (hstrip : strip table (.obj fields) = .ok (.obj out)) :
    declaredName? out = (resolvedText? fields).map .str := by
  have htexts : IsTextOrNone (declaredName? fields) :=
    (isTextOrNone_identifierText (h.lookup _)).orElse
      ((isTextOrNone_entityName (eachObject_field (h.lookup _) _)).orElse
        (isTextOrNone_identifierText (h.lookup _)))
  rw [declaredName_strip (h.mono fun _ ho => ho.hasPlainTexts) hstrip]
  exact htexts.eq_map

/-- The name of a stripped declaration is the name that it resolves to. -/
theorem declaredName_view {table : KindTable} {fields out : Fields}
    (h : (Json.obj fields).EachObject Tree.Conforms)
    (hstrip : strip table (.obj fields) = .ok (.obj out)) :
    declaredName? out = (resolvedName? fields).map nameText := by
  have hnames := hasNameTexts_of_conforms h
  have hresolved : IsNameOrNone (declaredName? fields) :=
    (isNameOrNone_identifierText (hnames.lookup _)).orElse
      ((isNameOrNone_entityName (eachObject_field (hnames.lookup _) _)).orElse
        (isNameOrNone_identifierText (hnames.lookup _)))
  rw [declaredName_strip (hnames.mono fun _ ho => ho.1.hasPlainTexts) hstrip]
  exact hresolved.eq_map

end Node

/-! ## Views -/

open Json (lookup)
open Node (ownName? fullName? resolvedName?)

/-- The type of a variable, as far as it is recorded. -/
inductive TypeView where
  | plain (name : Name)
  | qualified (name : Name) (container : Option Name)

/-- What is read off a type: the name that it refers to, if it refers to one. -/
def TypeView.of (type : Json) : Option TypeView :=
  let typeName := type.field "typeName"
  if (typeName.field "left").truthy && (typeName.field "right").truthy then
    (ownName? (typeName.field "right")).map fun name =>
      .qualified name (fullName? (typeName.field "left"))
  else (fullName? typeName).map .plain

/-- What is read off one variable. -/
structure VariableView where
  name : Option Name
  type : Option TypeView

def VariableView.of (declaration : Json) : VariableView :=
  ⟨ownName? (declaration.field "name"), TypeView.of (declaration.field "type")⟩

/-- What is read off one imported name: its kind for a fault, and the name. -/
structure NameView where
  kind : Option String
  name : Option Name

/-- The names that an import gives to what it imports. -/
structure BindingsView where
  name : Option Name
  elements : List NameView

/-- The clause of an import. -/
structure ClauseView where
  name : Option Name
  bindings : Option BindingsView

/-- What a walk reads off a statement, its body apart. -/
structure View where
  /-- The kind as it stands in the node. -/
  tag : Json
  kind : Option String
  flags : Int
  /-- The name under `name`, which is that of a module. -/
  name : Option Name
  /-- The name that a declaration or an import resolves to. -/
  resolved : Option Name
  exported : Bool
  declarations : List VariableView
  expression : Option Name
  clause : Option ClauseView

namespace View

/-- The items of a list; none of any other value. -/
def itemsOf : Json → List Json
  | .arr vs => vs
  | _ => []

/-- The name of a node's kind. -/
def kindOf (kinds : KindTable) (v : Json) : Option String :=
  match kinds.kindName v with
  | .ok kind => kind
  | .error _ => none

def nameOf (kinds : KindTable) (v : Json) : NameView :=
  ⟨kindOf kinds v, v.fields?.bind resolvedName?⟩

def bindingsOf (kinds : KindTable) : Json → Option BindingsView
  | .obj fields =>
    some ⟨ownName? (lookup "name" fields),
      (itemsOf (lookup "elements" fields)).map (nameOf kinds)⟩
  | _ => none

def clauseOf (kinds : KindTable) : Json → Option ClauseView
  | .obj fields =>
    some ⟨ownName? (lookup "name" fields), bindingsOf kinds (lookup "namedBindings" fields)⟩
  | _ => none

def flagsOf : Json → Int
  | .int n => n
  | _ => 0

/-- What is read off a node. -/
def of (kinds : KindTable) (fields : Fields) : View where
  tag := lookup "kind" fields
  kind := kindOf kinds (.obj fields)
  flags := flagsOf (lookup "flags" fields)
  name := ownName? (lookup "name" fields)
  resolved := resolvedName? fields
  exported := (itemsOf (lookup "modifiers" fields)).any fun m =>
    kindOf kinds m = some ModifierKind.exported.name
  declarations :=
    (itemsOf ((lookup "declarationList" fields).field "declarations")).map VariableView.of
  expression := fullName? (lookup "expression" fields)
  clause := clauseOf kinds (lookup "importClause" fields)

end View

/-- The items of a list of objects that may be missing. -/
theorem Json.MaybeObjects.items {v : Json} {objects : List Fields} (h : v.MaybeObjects objects) :
    View.itemsOf v = objects.map .obj ∧ Node.items v = .ok (objects.map .obj) := by
  rcases h with ⟨rfl, rfl⟩ | rfl
  · exact ⟨rfl, rfl⟩
  · exact ⟨rfl, rfl⟩

namespace Node

/-- The kind of a node that keeps to the schema has a name. -/
theorem kindName_view {table : KindTable} {fields : Fields}
    (h : (Json.obj fields).EachObject Tree.Conforms) :
    table.kindName (.obj fields) = .ok (View.kindOf table (.obj fields)) := by
  obtain ⟨⟨_, hfields⟩, -⟩ := Json.eachObject_obj.mp h
  unfold View.kindOf
  rw [KindTable.kindName, hfields.kind_eq]
  rfl

/-- The kind of a stripped node is the name of its kind. -/
theorem kind_view {table : KindTable} {fields out : Fields}
    (hstrip : strip table (.obj fields) = .ok (.obj out)) :
    lookup "kind" out = Json.ofText? (View.kindOf table (.obj fields)) := by
  obtain ⟨name, hname, hkind⟩ := strip_kind hstrip
  unfold View.kindOf
  rw [hkind, hname]

/-- A node that keeps to the schema can be stripped. -/
theorem strip_conforming (table : KindTable) {fields : Fields}
    (h : (Json.obj fields).EachObject Tree.Conforms) :
    ∃ out, strip table (.obj fields) = .ok (.obj out) := by
  obtain ⟨v, hv⟩ := strip_total table (.obj fields)
    (h.mono fun _ ⟨kind, hfields⟩ => ⟨kind.code, hfields.kind_eq⟩)
  obtain ⟨_, out, -, -, rfl⟩ := strip_obj_ok hv
  exact ⟨out, hv⟩

/-- What stands under a name that holds a list: null, or a list with its stripped items. -/
theorem strip_list {table : KindTable} {v w : Json} (hlist : v = .null ∨ ∃ vs, v = .arr vs)
    (hstrip : strip table v = .ok w) :
    Node.items w = .ok (View.itemsOf w) ∧
      List.Forall₂ (fun v w => strip table v = .ok w) (View.itemsOf v) (View.itemsOf w) := by
  rcases hlist with rfl | ⟨vs, rfl⟩
  · obtain rfl := Except.ok.inj hstrip
    exact ⟨rfl, .nil⟩
  · obtain ⟨ws, hws, rfl⟩ := strip_arr_ok hstrip
    exact ⟨rfl, forall₂_stripItems hws⟩

/-- Among stripped nodes there is one of a kind exactly if there was one before. -/
theorem exists_kind_iff {table : KindTable} {vs ws : List Json} {name : String}
    (h : List.Forall₂ (fun v w => strip table v = .ok w) vs ws)
    (hnodes : ∀ v ∈ vs, ∃ fields, v = .obj fields) :
    (∃ w ∈ ws, w.field "kind" = .str name) ↔
      (vs.any fun v => View.kindOf table v = some name) = true := by
  induction h with
  | nil => simp
  | @cons v w vs ws hvw _ ih =>
    obtain ⟨fields, rfl⟩ := hnodes v (List.mem_cons_self ..)
    obtain ⟨_, out, -, -, rfl⟩ := strip_obj_ok hvw
    have hkind : (Json.obj out).field "kind" = .str name ↔
        View.kindOf table (.obj fields) = some name := by
      show lookup "kind" out = _ ↔ _
      rw [kind_view hvw]
      cases View.kindOf table (.obj fields) <;> simp [Json.ofText?]
    rw [List.any_cons, Bool.or_eq_true, decide_eq_true_eq,
      ← ih fun u hu => hnodes u (List.mem_cons_of_mem _ hu), ← hkind]
    simp

/-- The modifiers of a stripped node that keeps to the schema hold the export modifier exactly if
the view says so. Replacing the name of the node makes no difference. -/
theorem modifiers_view {table : KindTable} {fields out : Fields} (name : Json)
    (h : (Json.obj fields).EachObject Tree.Conforms)
    (hstrip : strip table (.obj fields) = .ok (.obj out)) :
    ∃ found, Node.modifiers (.obj (Json.setField "name" name out)) = .ok found ∧
      found.contains .exported = (View.of table fields).exported := by
  obtain ⟨⟨kind, hfields⟩, -⟩ := Json.eachObject_obj.mp h
  have hform : Tree.fieldForm kind "modifiers" = some (.nodes SyntaxKind.all) := rfl
  have hlist : lookup "modifiers" fields = .null ∨ ∃ vs, lookup "modifiers" fields = .arr vs :=
    (hfields.lookup hform).imp_right fun ⟨vs, hvs, _⟩ => ⟨vs, hvs⟩
  have hnodes : ∀ v ∈ View.itemsOf (lookup "modifiers" fields), ∃ fs, v = .obj fs := by
    intro v hv
    rcases hfields.lookup hform with hnull | ⟨vs, hvs, hkinds⟩
    · rw [hnull] at hv
      cases hv
    · rw [hvs] at hv
      obtain ⟨fs, hfs, -⟩ := hkinds v hv
      exact ⟨fs, hfs⟩
  have hmodifiers : strip table (lookup "modifiers" fields) = .ok (lookup "modifiers" out) :=
    strip_fields hstrip (by decide) (by decide)
  obtain ⟨hitems, hstripped⟩ := strip_list hlist hmodifiers
  have hlookup : lookup "modifiers" (Json.setField "name" name out) = lookup "modifiers" out :=
    Json.lookup_setField_of_ne (by decide) name out
  have hfound : ∃ found, Node.modifiers (.obj (Json.setField "name" name out)) = .ok found := by
    unfold Node.modifiers
    simp only [get_obj, bind, Except.bind, hlookup, hitems]
    exact ⟨_, rfl⟩
  obtain ⟨found, hfound⟩ := hfound
  refine ⟨found, hfound, ?_⟩
  rw [Bool.eq_iff_iff, contains_modifiers .exported hfound, hlookup]
  refine Iff.trans ?_ (exists_kind_iff hstripped hnodes)
  constructor
  · rintro ⟨items, heq, hmem⟩
    rw [heq]
    exact hmem
  · rintro ⟨node, hmem, hkind⟩
    exact ⟨_, items_eq_arr_of_mem hitems hmem hkind, node, hmem, hkind⟩

end Node

end DeclCatalogue
