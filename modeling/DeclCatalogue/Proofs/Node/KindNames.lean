import DeclCatalogue.Proofs.Json.Paths
import DeclCatalogue.Proofs.Node.NamedKinds

/-!
# Kinds without numbers

`Node.nameKinds` puts names in the place of all numbers that are kinds and that a table can name.
After that no table is needed any more: every table gives the kinds of the value the same names
(`hasSettledKind_nameKinds`), and two tables that give the kinds of the objects of a value the same
names strip it to the same (`strip_congr`).

So a value says as much about what is read through a table as the table and the numbers together.
What is not read through a table are the texts of names, which are returned as they stand:
`Node.SameTexts` says that two values agree in them, in every place.
-/

namespace DeclCatalogue.Node

open Json (lookup find? setField EachObject)

variable {kinds first second : KindTable} {fields : Fields}

/-- A number is called what the table calls the tag that it stands for, or unknown. -/
theorem nameOf_of_isTagged (table : KindTable) {kind : Json} (h : kind.isTagged = true) :
    table.nameOf kind =
      (KindTable.tagOf kind).map fun tag =>
        some ((table.find? tag).getD KindTable.unknownName) := by
  cases kind with
  | bool b => rfl
  | int n => rfl
  | real x => rfl
  | _ => cases h

theorem isTagged_of_tagOf {kind : Json} {tag : Int} (h : KindTable.tagOf kind = .ok tag) :
    kind.isTagged = true := by
  cases kind with
  | bool b => rfl
  | int n => rfl
  | real x => rfl
  | _ => cases h

/-- The name of a kind that stands for a tag. -/
theorem kindName_of_tagOf (table : KindTable) {tag : Int}
    (h : KindTable.tagOf (lookup "kind" fields) = .ok tag) :
    table.kindName (.obj fields) =
      .ok (some ((table.orStandard.find? tag).getD KindTable.unknownName)) := by
  rw [KindTable.kindName, nameOf_of_isTagged _ (isTagged_of_tagOf h), h]
  rfl

/-! ## One value, two tables -/

/-- Two tables give the kind of an object the same name. -/
def AgreeOnKind (first second : KindTable) (fields : Fields) : Prop :=
  first.kindName (.obj fields) = second.kindName (.obj fields)

theorem stripItems_congr {vs : List Json} (h : ∀ v ∈ vs, strip first v = strip second v) :
    stripItems first vs = stripItems second vs := by
  induction vs with
  | nil => rfl
  | cons v rest ih =>
    rw [stripItems, stripItems, h v (List.mem_cons_self ..),
      ih fun u hu => h u (List.mem_cons_of_mem _ hu)]

theorem stripFields_congr (h : ∀ f ∈ fields, strip first f.2 = strip second f.2) :
    stripFields first fields = stripFields second fields := by
  induction fields with
  | nil => rfl
  | cons f rest ih =>
    obtain ⟨key, v⟩ := f
    rw [stripFields, stripFields, h (key, v) (List.mem_cons_self ..),
      ih fun g hg => h g (List.mem_cons_of_mem _ hg)]

/-- Tables that agree on the kinds of all objects of a value strip it to the same, or refuse it for
the same reason. -/
theorem strip_congr (v : Json) :
    v.EachObject (AgreeOnKind first second) → strip first v = strip second v := by
  induction v using Json.induct with
  | arr vs ih =>
    intro h
    rw [strip, strip, stripItems_congr fun v hv => ih v hv (Json.eachObject_arr.mp h v hv)]
  | obj fields ih =>
    intro h
    obtain ⟨hself, hfields⟩ := Json.eachObject_obj.mp h
    rw [strip, strip, stripFields_congr fun f hf => ih f hf (hfields f hf)]
    cases hkept : stripFields second fields with
    | error fault => rfl
    | ok kept =>
      -- the kind that is kept has the name of the kind that was there, by either table
      have hname : ∀ table : KindTable, table.orStandard.nameOf (lookup "kind" kept) =
          table.kindName (.obj fields) := fun table =>
        nameOf_strip (lookup_stripFields isBookkeeping_kind hkept)
      have hnamed : nameKind first kept = nameKind second kept := by
        unfold nameKind
        rcases find?_eq_none_or_some "kind" kept with ⟨hfind, -⟩ | hfind
        · rw [hfind]
        · rw [hfind]
          dsimp only
          rw [hname first, hname second, hself]
      show (do let named ← nameKind first kept; pure (Json.obj named)) =
        (do let named ← nameKind second kept; pure (Json.obj named))
      rw [hnamed]
  | _ => exact fun _ => rfl

/-! ## Naming all kinds -/

/-- A value with the names of kinds in place of their numbers, in all its objects. -/
def nameKinds (kinds : KindTable) (v : Json) : Json :=
  nameKindsAt kinds (fun _ => true) v

theorem nameItemsAt_all (vs : List Json) (position : Nat) :
    nameItemsAt kinds (fun _ => true) position vs = vs.map (nameKinds kinds) := by
  induction vs generalizing position with
  | nil => rfl
  | cons v rest ih => rw [nameItemsAt, ih, List.map_cons, nameKinds]

theorem nameFieldsAt_all (fields : Fields) (position : Nat) :
    nameFieldsAt kinds (fun _ => true) position fields =
      fields.map fun f => (f.1, nameKinds kinds f.2) := by
  induction fields generalizing position with
  | nil => rfl
  | cons f rest ih => rw [nameFieldsAt, ih, List.map_cons, nameKinds]

theorem nameKinds_arr (vs : List Json) :
    nameKinds kinds (.arr vs) = .arr (vs.map (nameKinds kinds)) := by
  rw [nameKinds, nameKindsAt, nameItemsAt_all]

theorem nameKinds_obj (fields : Fields) :
    nameKinds kinds (.obj fields) =
      .obj (nameTag kinds (fields.map fun f => (f.1, nameKinds kinds f.2))) := by
  rw [nameKinds, nameKindsAt_obj, namedAt, nameFieldsAt_all]
  rfl

theorem nameKinds_of_isKey {v : Json} (h : v.isKey = true) : nameKinds kinds v = v :=
  nameKindsAt_of_isKey h

theorem eq_arr_of_nameKinds {v : Json} {ws : List Json} (h : nameKinds kinds v = .arr ws) :
    ∃ vs, v = .arr vs := by
  cases v with
  | arr vs => exact ⟨vs, rfl⟩
  | obj fields => rw [nameKinds_obj] at h; cases h
  | _ => cases h

theorem eq_obj_of_nameKinds {v : Json} {out : Fields} (h : nameKinds kinds v = .obj out) :
    ∃ fields, v = .obj fields := by
  cases v with
  | arr vs => rw [nameKinds_arr] at h; cases h
  | obj fields => exact ⟨fields, rfl⟩
  | _ => cases h

theorem eq_of_nameKinds_isKey {v w : Json} (h : nameKinds kinds v = w) (hw : w.isKey = true) :
    v = w := by
  cases v with
  | arr vs => rw [nameKinds_arr] at h; cases h; cases hw
  | obj fields => rw [nameKinds_obj] at h; cases h; cases hw
  | _ => exact h

/-- Tables that agree on every kind name them all alike. -/
theorem nameKinds_congr (h : ∀ v, first.kindName v = second.kindName v) (v : Json) :
    nameKinds first v = nameKinds second v := by
  induction v using Json.induct with
  | arr vs ih =>
    rw [nameKinds_arr, nameKinds_arr, List.map_congr_left ih]
  | obj fields ih =>
    have hfields : fields.map (fun f => (f.1, nameKinds first f.2)) =
        fields.map fun f => (f.1, nameKinds second f.2) :=
      List.map_congr_left fun f hf => by rw [ih f hf]
    rw [nameKinds_obj, nameKinds_obj, hfields]
    unfold nameTag
    rw [h]
  | _ => rfl

/-- Only the kind of an object is replaced: under another name it holds what it held, with kinds
named. -/
theorem lookup_nameKinds {key : String} (hkey : key ≠ "kind") (fields : Fields) :
    lookup key (nameTag kinds (fields.map fun f => (f.1, nameKinds kinds f.2))) =
      nameKinds kinds (lookup key fields) := by
  rw [lookup_nameTag hkey]
  induction fields with
  | nil => rfl
  | cons f rest ih =>
    rw [List.map_cons, Json.lookup_cons, Json.lookup_cons]
    split
    · rfl
    · exact ih

/-- The kind of an object has the same name by every table. -/
def HasSettledKind (fields : Fields) : Prop :=
  ∀ first second : KindTable, AgreeOnKind first second fields

/-- Where a kind stands as a number still, no table can name it. -/
theorem hasSettledKind_nameTag (kinds : KindTable) (fields : Fields) :
    HasSettledKind (nameTag kinds fields) := by
  intro first second
  unfold AgreeOnKind nameTag
  split
  next name _ _ =>
    rw [KindTable.kindName, KindTable.kindName, Json.lookup_setField_self]
    rfl
  next hnone =>
    rw [KindTable.kindName, KindTable.kindName]
    by_cases htagged : (lookup "kind" fields).isTagged = true
    · rw [nameOf_of_isTagged _ htagged, nameOf_of_isTagged _ htagged]
      cases htag : KindTable.tagOf (lookup "kind" fields) with
      | error fault => rfl
      | ok tag => exact absurd (kindName_of_tagOf kinds htag) (hnone _ htagged)
    · cases hkind : lookup "kind" fields with
      | bool b => exact absurd (hkind ▸ rfl) htagged
      | int n => exact absurd (hkind ▸ rfl) htagged
      | real x => exact absurd (hkind ▸ rfl) htagged
      | _ => rfl

/-- **After naming no kind depends on a table.** -/
theorem hasSettledKind_nameKinds (v : Json) : (nameKinds kinds v).EachObject HasSettledKind := by
  induction v using Json.induct with
  | arr vs ih =>
    rw [nameKinds_arr, Json.eachObject_arr]
    intro u hu
    obtain ⟨v, hv, rfl⟩ := List.mem_map.mp hu
    exact ih v hv
  | obj fields ih =>
    have hinner : ∀ f ∈ fields.map (fun f => (f.1, nameKinds kinds f.2)),
        f.2.EachObject HasSettledKind := by
      intro f hf
      obtain ⟨g, hg, rfl⟩ := List.mem_map.mp hf
      exact ih g hg
    have hself := hasSettledKind_nameTag kinds (fields.map fun f => (f.1, nameKinds kinds f.2))
    rw [nameKinds_obj, Json.eachObject_obj]
    refine ⟨hself, fun f hf => ?_⟩
    rcases nameTag_cases kinds (fields.map fun f => (f.1, nameKinds kinds f.2)) with
      heq | ⟨name, -, -, heq⟩
    · rw [heq] at hf
      exact hinner f hf
    · rw [heq] at hf
      rcases Json.mem_setField hf with rfl | hold
      · exact Json.eachObject_str name
      · exact hinner f hold
  | _ => exact fun o ho => by cases ho

/-! ## Two values, each with its table -/

variable {u v : Json}

/-- Kinds that are called the same have the same name, each by the table of its value. -/
theorem kindName_eq_of_nameKinds (h : nameKinds first u = nameKinds second v) :
    first.kindName u = second.kindName v := by
  have hsettled : first.kindName (nameKinds second v) = second.kindName (nameKinds second v) := by
    cases hv : nameKinds second v with
    | obj fields =>
      have hall : (nameKinds second v).EachObject HasSettledKind := hasSettledKind_nameKinds v
      rw [hv] at hall
      exact (Json.eachObject_obj.mp hall).1 first second
    | _ => rfl
  calc first.kindName u = first.kindName (nameKinds first u) := (kindName_nameKindsAt u).symm
    _ = first.kindName (nameKinds second v) := by rw [h]
    _ = second.kindName (nameKinds second v) := hsettled
    _ = second.kindName v := kindName_nameKindsAt v

/-- Values whose kinds are called the same are stripped to the same, each by its table. -/
theorem strip_eq_of_nameKinds (h : nameKinds first u = nameKinds second v) :
    strip first u = strip second v :=
  calc strip first u = strip first (nameKinds first u) := (strip_nameKindsAt u _).symm
    _ = strip first (nameKinds second v) := by rw [h]
    _ = strip second (nameKinds second v) :=
      strip_congr _ ((hasSettledKind_nameKinds v).mono fun _ ho => ho first second)
    _ = strip second v := strip_nameKindsAt v _

/-- Objects whose kinds are called the same hold such values under every name but the kind's. -/
theorem nameKinds_lookup {f g : Fields}
    (h : nameKinds first (.obj f) = nameKinds second (.obj g)) {key : String}
    (hkey : key ≠ "kind") :
    nameKinds first (lookup key f) = nameKinds second (lookup key g) := by
  rw [nameKinds_obj, nameKinds_obj] at h
  rw [← lookup_nameKinds hkey, ← lookup_nameKinds hkey, Json.obj.inj h]

/-- In every place the identifiers of two values have the same text. -/
def SameTexts (u v : Json) : Prop :=
  ∀ path : Json.Path, (u.at? path).map identifierText = (v.at? path).map identifierText

namespace SameTexts

theorem refl (v : Json) : SameTexts v v := fun _ => rfl

theorem identifierText_eq (h : SameTexts u v) : identifierText u = identifierText v :=
  Option.some.inj (h [])

/-- The texts of what is one step below agree. -/
theorem child (h : SameTexts u v) (step : Json.Step) {x y : Json} (hx : u.child? step = some x)
    (hy : v.child? step = some y) : SameTexts x y := by
  intro path
  have hpath := h (step :: path)
  rwa [Json.at?, Json.at?, hx, hy] at hpath

theorem lookup {f g : Fields} (h : SameTexts (.obj f) (.obj g)) (key : String) :
    SameTexts (lookup key f) (lookup key g) := by
  have hboth : ((find? key f).bind some).map identifierText =
      ((find? key g).bind some).map identifierText := h [.field key]
  rcases find?_eq_none_or_some key f with ⟨hf, hfnull⟩ | hf <;>
    rcases find?_eq_none_or_some key g with ⟨hg, hgnull⟩ | hg
  · rw [hfnull, hgnull]
    exact refl _
  · rw [hf, hg] at hboth
    cases hboth
  · rw [hf, hg] at hboth
    cases hboth
  · exact h.child (.field key) hf hg

end SameTexts

end DeclCatalogue.Node
