import DeclCatalogue.Proofs.Json.Paths
import DeclCatalogue.Proofs.Node.Parent

/-!
# Which object a link names

Linking a tree is followed place by place. At the end of every path that does not go through a
`parent` the linked tree has what the tree has there, linked under some enclosing object
(`at?_linkUnder`), and only the links tell the two apart. The object that the path leaves last is
the nearest one around its end, and it is the one that the link names (`linkParents_leaves`). Where
a path leaves no object, nothing is linked.

Links are set from the tree without its links, so that linking a linked tree sets the same ones
(`linkUnder_linkUnder`). And since the object under a `parent` is one of the tree, whatever holds of
all objects in the tree and is kept by a link holds of all objects in the linked one
(`eachObject_linkUnder`).
-/

namespace DeclCatalogue.Node

open Json (find? setField keys Path Step)

/-- The name under which a link stands. -/
def isLink (key : String) : Bool :=
  key = "parent"

/-! ## Place by place -/

theorem linkItems_eq_map (enclosing : Option Json) (vs : List Json) :
    linkItems enclosing vs = vs.map (linkUnder enclosing) := by
  induction vs with
  | nil => rfl
  | cons v rest ih => rw [linkItems, ih, List.map_cons]

theorem child?_linkUnder_item (enclosing : Option Json) (v : Json) (i : Nat) :
    (linkUnder enclosing v).child? (.item i) = (v.child? (.item i)).map (linkUnder enclosing) := by
  cases v with
  | arr vs =>
    rw [linkUnder, linkItems_eq_map]
    exact List.getElem?_map
  | _ => rfl

theorem child?_linkUnder_field {key : String} (hkey : key ≠ "parent") (enclosing : Option Json)
    (fields : Fields) :
    (linkUnder enclosing (.obj fields)).child? (.field key) =
      ((Json.obj fields).child? (.field key)).map
        (linkUnder (some (.obj (unlinkFields fields)))) := by
  rw [linkUnder_obj]
  exact find?_linked hkey enclosing fields

/-- Through items of lists alone the enclosing object stays the same. -/
theorem at?_linkUnder_items (enclosing : Option Json) (v : Json) (indices : List Nat) :
    (linkUnder enclosing v).at? (indices.map .item) =
      (v.at? (indices.map .item)).map (linkUnder enclosing) := by
  induction indices generalizing v with
  | nil => rfl
  | cons i rest ih =>
    rw [List.map_cons, Json.at?, Json.at?, child?_linkUnder_item]
    cases v.child? (.item i) with
    | none => rfl
    | some u => exact ih u

/-- At the end of every path that does not go through a link is what was there, linked. -/
theorem at?_linkUnder {v : Json} (enclosing : Option Json) {path : Path}
    (hpath : path.Avoids isLink) :
    Option.Rel (fun u w => ∃ nearest, w = linkUnder nearest u) (v.at? path)
      ((linkUnder enclosing v).at? path) := by
  refine Json.at?_rel ?_ ⟨enclosing, rfl⟩ hpath
  rintro u _ step ⟨nearest, rfl⟩ hstep
  have hbelow : ∃ next, (linkUnder nearest u).child? step =
      (u.child? step).map (linkUnder next) := by
    cases step with
    | item i => exact ⟨_, child?_linkUnder_item nearest u i⟩
    | field key =>
      have hkey : key ≠ "parent" := by simpa [isLink] using hstep key rfl
      cases u with
      | obj fields => exact ⟨_, child?_linkUnder_field hkey nearest fields⟩
      | _ => exact ⟨none, rfl⟩
  obtain ⟨next, hnext⟩ := hbelow
  rw [hnext]
  cases u.child? step with
  | none => exact .none
  | some below => exact .some ⟨next, rfl⟩

/-! ## What is linked, and what is not -/

/-- `LinksTo v w`: at its top `w` is `v` but for a link. A list keeps its length, and an object its
fields in order, apart from its link. Anything else is left alone. -/
inductive LinksTo : Json → Json → Prop where
  | primitive {v : Json} : v.isKey = true → LinksTo v v
  | list {vs ws : List Json} : ws.length = vs.length → LinksTo (.arr vs) (.arr ws)
  | object {fields out : Fields} :
      (keys out).filter (fun key => !isLink key) = (keys fields).filter (fun key => !isLink key) →
      LinksTo (.obj fields) (.obj out)

theorem keys_linkFields (enclosing : Option Json) (fields : Fields) :
    keys (linkFields enclosing fields) = keys fields := by
  induction fields with
  | nil => rfl
  | cons f rest ih => exact congrArg (f.1 :: ·) ih

theorem keys_setParent (enclosing : Option Json) (fields : Fields) :
    (keys (setParent enclosing fields)).filter (fun key => !isLink key) =
      (keys fields).filter fun key => !isLink key := by
  cases enclosing with
  | none => rfl
  | some parent =>
    show (keys (setField "parent" parent fields)).filter _ = _
    rw [Json.keys_setField]
    split
    · rfl
    · rw [List.filter_append]
      exact List.append_nil _

theorem linksTo_linkUnder (enclosing : Option Json) (v : Json) :
    LinksTo v (linkUnder enclosing v) := by
  cases v with
  | arr vs =>
    rw [linkUnder, linkItems_eq_map]
    exact .list (List.length_map _)
  | obj fields =>
    rw [linkUnder_obj]
    refine .object ?_
    unfold linked
    rw [keys_setParent, keys_linkFields]
  | _ => exact .primitive rfl

theorem find?_parent_linkFields (enclosing : Option Json) (fields : Fields) :
    find? "parent" (linkFields enclosing fields) = find? "parent" fields := by
  induction fields with
  | nil => rfl
  | cons f rest ih =>
    obtain ⟨key, v⟩ := f
    rw [linkFields, find?, find?]
    split
    · rfl
    · exact ih

/-- An enclosed object is linked to what encloses it. -/
theorem find?_parent_enclosed (parent : Json) (fields : Fields) :
    find? "parent" (linked (some parent) fields) = some parent :=
  Json.find?_setField_self ..

/-- Of an object that nothing encloses what stands under `parent` is left alone. -/
theorem find?_parent_outermost (fields : Fields) :
    find? "parent" (linked none fields) = find? "parent" fields :=
  find?_parent_linkFields _ fields

/-! ## Linking again -/

theorem unlinkFields_setParent (enclosing : Option Json) (fields : Fields) :
    unlinkFields (setParent enclosing fields) = unlinkFields fields := by
  cases enclosing with
  | none => rfl
  | some parent =>
    show unlinkFields (setField "parent" parent fields) = _
    induction fields with
    | nil => rfl
    | cons f rest ih =>
      obtain ⟨key, v⟩ := f
      rw [setField]
      by_cases hkey : key = "parent"
      · rw [if_pos hkey, unlinkFields, unlinkFields, if_pos hkey, if_pos hkey]
      · rw [if_neg hkey, unlinkFields, unlinkFields, if_neg hkey, if_neg hkey, ih]

theorem unlinkFields_linkFields {fields : Fields}
    (h : ∀ f ∈ fields, ∀ enclosing, unlink (linkUnder enclosing f.2) = unlink f.2)
    (enclosing : Option Json) : unlinkFields (linkFields enclosing fields) = unlinkFields fields := by
  induction fields with
  | nil => rfl
  | cons f rest ih =>
    obtain ⟨key, v⟩ := f
    have hrest := ih fun g hg => h g (List.mem_cons_of_mem _ hg)
    rw [linkFields, unlinkFields, unlinkFields, hrest]
    split
    · rfl
    · rw [h (key, v) (List.mem_cons_self ..) enclosing]

theorem unlinkItems_linkItems {vs : List Json}
    (h : ∀ v ∈ vs, ∀ enclosing, unlink (linkUnder enclosing v) = unlink v)
    (enclosing : Option Json) : unlinkItems (linkItems enclosing vs) = unlinkItems vs := by
  induction vs with
  | nil => rfl
  | cons v rest ih =>
    rw [linkItems, unlinkItems, unlinkItems, h v (List.mem_cons_self ..) enclosing,
      ih fun u hu => h u (List.mem_cons_of_mem _ hu)]

/-- Without its links a linked value is the value without its links. -/
theorem unlink_linkUnder (v : Json) :
    ∀ enclosing, unlink (linkUnder enclosing v) = unlink v := by
  induction v using Json.induct with
  | arr vs ih =>
    intro enclosing
    rw [linkUnder, unlink, unlink, unlinkItems_linkItems ih]
  | obj fields ih =>
    intro enclosing
    rw [linkUnder_obj, unlink, unlink, linked, unlinkFields_setParent, unlinkFields_linkFields ih]
  | _ => exact fun _ => rfl

/-- Setting a link and linking what stands under the other names can change places. -/
theorem linkFields_setParent (enclosing nearest : Option Json) (fields : Fields) :
    linkFields nearest (setParent enclosing fields) =
      setParent enclosing (linkFields nearest fields) := by
  cases enclosing with
  | none => rfl
  | some parent =>
    show linkFields nearest (setField "parent" parent fields) =
      setField "parent" parent (linkFields nearest fields)
    induction fields with
    | nil => rfl
    | cons f rest ih =>
      obtain ⟨key, v⟩ := f
      rw [setField, linkFields, setField]
      by_cases hkey : key = "parent"
      · rw [if_pos hkey, if_pos hkey, linkFields, if_pos hkey]
      · rw [if_neg hkey, if_neg hkey, linkFields, ih]

theorem setParent_setParent (enclosing : Option Json) (fields : Fields) :
    setParent enclosing (setParent enclosing fields) = setParent enclosing fields := by
  cases enclosing with
  | none => rfl
  | some parent => exact Json.setField_self (Json.find?_setField_self ..)

theorem linkFields_linkFields {fields : Fields}
    (h : ∀ f ∈ fields, ∀ enclosing, linkUnder enclosing (linkUnder enclosing f.2) =
      linkUnder enclosing f.2) (enclosing : Option Json) :
    linkFields enclosing (linkFields enclosing fields) = linkFields enclosing fields := by
  induction fields with
  | nil => rfl
  | cons f rest ih =>
    obtain ⟨key, v⟩ := f
    rw [linkFields, linkFields, ih fun g hg => h g (List.mem_cons_of_mem _ hg)]
    split
    · rfl
    · rw [h (key, v) (List.mem_cons_self ..)]

/-- **Linking again changes nothing.** -/
theorem linkUnder_linkUnder (v : Json) :
    ∀ enclosing, linkUnder enclosing (linkUnder enclosing v) = linkUnder enclosing v := by
  induction v using Json.induct with
  | arr vs ih =>
    intro enclosing
    rw [linkUnder, linkUnder, linkItems_eq_map, linkItems_eq_map, List.map_map]
    exact congrArg Json.arr (List.map_congr_left fun v hv => ih v hv enclosing)
  | obj fields ih =>
    intro enclosing
    -- the object without links is the same, and so the links to it are
    have hself : unlinkFields (linked enclosing fields) = unlinkFields fields := by
      unfold linked
      rw [unlinkFields_setParent, unlinkFields_linkFields fun f _ => unlink_linkUnder f.2]
    rw [linkUnder_obj, linkUnder_obj]
    refine congrArg Json.obj ?_
    rw [linked, hself, linked, linkFields_setParent, linkFields_linkFields ih, setParent_setParent]
  | _ => exact fun _ => rfl

/-! ## What holds of every object -/

/-- Nothing stands under `parent`. -/
def Linkless (fields : Fields) : Prop :=
  ∀ f ∈ fields, f.1 ≠ "parent"

/-- A tree without links is left as it is when they are taken away. -/
theorem unlink_eq_self {v : Json} (h : v.EachObject Linkless) : unlink v = v := by
  induction v using Json.induct with
  | arr vs ih =>
    rw [unlink]
    have hitems := Json.eachObject_arr.mp h
    clear h
    congr 1
    induction vs with
    | nil => rfl
    | cons v rest ihrest =>
      rw [unlinkItems, ih v (List.mem_cons_self ..) (hitems v (List.mem_cons_self ..)),
        ihrest (fun u hu => ih u (List.mem_cons_of_mem _ hu))
          fun u hu => hitems u (List.mem_cons_of_mem _ hu)]
  | obj fields ih =>
    rw [unlink]
    obtain ⟨hself, hfields⟩ := Json.eachObject_obj.mp h
    clear h
    congr 1
    induction fields with
    | nil => rfl
    | cons f rest ihrest =>
      obtain ⟨key, v⟩ := f
      rw [unlinkFields, if_neg (hself _ (List.mem_cons_self ..)),
        ih (key, v) (List.mem_cons_self ..) (hfields _ (List.mem_cons_self ..)),
        ihrest (fun g hg => ih g (List.mem_cons_of_mem _ hg))
          (fun g hg => hself g (List.mem_cons_of_mem _ hg))
          fun g hg => hfields g (List.mem_cons_of_mem _ hg)]
  | _ => rfl

/-- An integer under a field is left alone, and nothing else becomes one. -/
theorem lookup_linked_int {key : String} (hkey : key ≠ "parent") {enclosing : Option Json}
    {fields : Fields} {n : Int} :
    Json.lookup key (linked enclosing fields) = .int n ↔ Json.lookup key fields = .int n := by
  rw [lookup_linked hkey]
  cases Json.lookup key fields <;> simp [linkUnder]

theorem linkFields_eq_map (enclosing : Option Json) (fields : Fields) :
    linkFields enclosing fields =
      fields.map fun f => (f.1, if f.1 = "parent" then f.2 else linkUnder enclosing f.2) := by
  induction fields with
  | nil => rfl
  | cons f rest ih => rw [linkFields, ih, List.map_cons]

/-- A field of a linked object is its link, or was there before and is linked. -/
theorem mem_linked {enclosing : Option Json} {fields : Fields} (hfree : Linkless fields)
    {f : String × Json} (hf : f ∈ linked enclosing fields) :
    (f.1 = "parent" ∧ enclosing = some f.2) ∨
      ∃ g ∈ fields, f = (g.1, linkUnder (some (.obj (unlinkFields fields))) g.2) := by
  have hold : f ∈ linkFields (some (.obj (unlinkFields fields))) fields →
      ∃ g ∈ fields, f = (g.1, linkUnder (some (.obj (unlinkFields fields))) g.2) := by
    intro hmem
    rw [linkFields_eq_map] at hmem
    obtain ⟨g, hg, rfl⟩ := List.mem_map.mp hmem
    exact ⟨g, hg, by rw [if_neg (hfree g hg)]⟩
  cases enclosing with
  | none => exact .inr (hold hf)
  | some parent =>
    rcases Json.mem_setField hf with rfl | hmem
    · exact .inl ⟨rfl, rfl⟩
    · exact .inr (hold hmem)

/-- **What linking keeps of an object, it keeps of all objects in a tree,** those under a `parent`
included: the enclosing object that stands there is one of the tree as it was. -/
theorem eachObject_linkUnder {P : Fields → Prop}
    (hP : ∀ (around : Option Fields) (fields : Fields), Linkless fields → P fields →
      P (linked (around.map .obj) fields)) {v : Json} (hfree : v.EachObject Linkless)
    (h : v.EachObject P) (around : Option Fields)
    (haround : ∀ fields, around = some fields → (Json.obj fields).EachObject P) :
    (linkUnder (around.map .obj) v).EachObject P := by
  induction v using Json.induct generalizing around with
  | arr vs ih =>
    rw [linkUnder, linkItems_eq_map]
    refine Json.eachObject_arr.mpr fun w hw => ?_
    obtain ⟨v, hv, rfl⟩ := List.mem_map.mp hw
    exact ih v hv (Json.eachObject_arr.mp hfree v hv) (Json.eachObject_arr.mp h v hv) around haround
  | obj fields ih =>
    obtain ⟨hfree', hfreeBelow⟩ := Json.eachObject_obj.mp hfree
    obtain ⟨hself, hbelow⟩ := Json.eachObject_obj.mp h
    rw [linkUnder_obj]
    refine Json.eachObject_obj.mpr ⟨hP around fields hfree' hself, fun f hf => ?_⟩
    rcases mem_linked hfree' hf with ⟨-, henclosing⟩ | ⟨g, hg, rfl⟩
    · obtain ⟨o, rfl, ho⟩ := Option.map_eq_some_iff.mp henclosing
      exact ho ▸ haround o rfl
    · refine ih g hg (hfreeBelow g hg) (hbelow g hg) (some (unlinkFields fields)) ?_
      rintro _ ⟨⟩
      have hself := unlink_eq_self hfree
      rw [unlink] at hself
      exact hself ▸ h
  | null => exact Json.eachObject_null
  | bool b => exact Json.eachObject_bool b
  | int n => exact Json.eachObject_int n
  | real x => exact Json.eachObject_real x
  | str s => exact Json.eachObject_str s

/-! ## The linked tree -/

/-- An object at the end of a path that leaves another object through one of its fields is linked
to that object as it is without links. -/
theorem linkParents_leaves {tree : Json} {path place : Path} {fields : Fields}
    (hpath : path.Avoids isLink) (hleaves : path.Leaves place)
    (hfields : tree.at? path = some (.obj fields)) :
    ∃ around, (linkParents tree).at? place = some (.obj around) ∧
      (linkParents tree).at? path = some (.obj (linked (some (unlink (.obj around))) fields)) := by
  obtain ⟨key, indices, rfl⟩ := hleaves
  have hkey : key ≠ "parent" := by
    simpa [isLink] using hpath key (List.mem_append_right _ (List.mem_cons_self ..))
  have hplace : Path.Avoids place isLink :=
    fun other hother => hpath other (List.mem_append_left _ hother)
  -- what the path leaves has a field, so it is an object
  rw [Json.at?_append] at hfields
  obtain ⟨u, hu, hbelow⟩ := Option.bind_eq_some_iff.mp hfields
  rw [Json.at?] at hbelow
  obtain ⟨below, hchild, hitems⟩ := Option.bind_eq_some_iff.mp hbelow
  obtain ⟨before, rfl⟩ : ∃ before, u = .obj before := by
    cases u with
    | obj before => exact ⟨before, rfl⟩
    | _ => cases hchild
  have hrel := at?_linkUnder (v := tree) none hplace
  rw [hu] at hrel
  obtain ⟨nearest, hnearest⟩ : ∃ nearest,
      (linkParents tree).at? place = some (linkUnder nearest (.obj before)) := by
    show ∃ nearest, (linkUnder none tree).at? place = _
    revert hrel
    generalize (linkUnder none tree).at? place = found
    rintro ⟨⟨nearest, rfl⟩⟩
    exact ⟨nearest, rfl⟩
  have hself : unlink (.obj (linked nearest before)) = .obj (unlinkFields before) := by
    rw [← linkUnder_obj, unlink_linkUnder, unlink]
  refine ⟨linked nearest before, by rw [hnearest, linkUnder_obj], ?_⟩
  rw [Json.at?_append, hnearest, Option.bind_some, Json.at?, child?_linkUnder_field hkey, hchild,
    Option.map_some, Option.bind_some, at?_linkUnder_items, hitems, Option.map_some,
    linkUnder_obj, hself]

/-- **Linking is exact, and stripping undoes it.** At the end of every path that does not go through
a `parent` the linked tree has what the tree has there, up to its links: a list of the same length,
an object with the same other fields in the same order, or the same text, number, truth value or
null. Every object there either lies in an object, and then it names the nearest one under `parent`,
whatever stood there before: a value cannot contain itself, so the link holds the object of the
linked tree as it is without links. Or it lies in no object, and then what stands under `parent` is
left as it was, with all that is in it. Linking the linked tree changes nothing, and stripped, under
whatever table, it is the tree stripped, or refused as the tree is. -/
theorem linkParents_exact (tree : Json) :
    (∀ path : Path, path.Avoids isLink →
      Option.Rel LinksTo (tree.at? path) ((linkParents tree).at? path) ∧
      ∀ fields, tree.at? path = some (.obj fields) →
        ∃ out, (linkParents tree).at? path = some (.obj out) ∧
          ((∃ place around, path.Leaves place ∧
              (linkParents tree).at? place = some (.obj around) ∧
              find? "parent" out = some (unlink (.obj around))) ∨
            path.InLists ∧ find? "parent" out = find? "parent" fields)) ∧
    linkParents (linkParents tree) = linkParents tree ∧
    ∀ table, strip table (linkParents tree) = strip table tree := by
  refine ⟨fun path hpath => ⟨?_, fun fields hfields => ?_⟩, linkUnder_linkUnder tree none,
    fun table => strip_linkUnder tree none⟩
  · refine Json.rel_mono ?_ (at?_linkUnder none hpath)
    rintro u _ ⟨nearest, rfl⟩
    exact linksTo_linkUnder nearest u
  · rcases path.inLists_or_leaves with hlists | ⟨place, hleaves⟩
    · refine ⟨linked none fields, ?_, .inr ⟨hlists, find?_parent_outermost fields⟩⟩
      obtain ⟨indices, rfl⟩ := hlists
      show (linkUnder none tree).at? _ = _
      rw [at?_linkUnder_items, hfields, Option.map_some, linkUnder_obj]
    · obtain ⟨around, haround, hout⟩ := linkParents_leaves hpath hleaves hfields
      exact ⟨_, hout, .inl ⟨place, around, hleaves, haround, find?_parent_enclosed _ _⟩⟩

/-- An object in two lists, in a field of an object that stands in a list itself. The inner one
cannot be told to lie in no object, as its path has a field on it. -/
theorem linkParents_exact_listed :
    let tree : Json := .arr [.obj [("parent", .obj [("b", .obj [])]),
      ("a", .arr [.arr [.obj [("parent", .int 1), ("kind", .int 80)]]])]]
    let path : Path := [.item 0, .field "a", .item 0, .item 0]
    path.Avoids isLink ∧ ∃ out, (linkParents tree).at? path = some (.obj out) ∧
      ∃ place around, path.Leaves place ∧ (linkParents tree).at? place = some (.obj around) ∧
        find? "parent" out = some (unlink (.obj around)) := by
  intro tree path
  have hpath : path.Avoids isLink := by
    intro key hkey
    have hsteps : Json.Step.field key = .field "a" := by simpa [path] using hkey
    rw [Json.Step.field.inj hsteps]
    rfl
  obtain ⟨out, hout, hlink⟩ := ((linkParents_exact tree).1 path hpath).2 _ rfl
  refine ⟨hpath, out, hout, hlink.resolve_right ?_⟩
  rintro ⟨⟨indices, hindices⟩, -⟩
  have hmem : Json.Step.field "a" ∈ indices.map Json.Step.item := hindices ▸ by decide
  obtain ⟨i, -, hi⟩ := List.mem_map.mp hmem
  cases hi

end DeclCatalogue.Node
