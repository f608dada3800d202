import DeclCatalogue.Node.Name
import DeclCatalogue.Node.Strip
import DeclCatalogue.Proofs.Json.Objects
import Mathlib.Data.List.Forall2

/-!
# What stripping does to a node

`Node.strip` is described by what can be looked up afterwards:

* `strip_fields`: the fields of a stripped object are the stripped fields of the object, except
  that the kind is the name of the kind (`strip_kind`);
* `strip_clean`: no object in a stripped value has bookkeeping, and the kind of each is a name or
  null; `strip_of_clean`: such a value is stripped to itself;
* `identifierText_strip`, `entityName_strip`: a value whose texts are texts has the same name
  before and after;
* `strip_total`: a value whose kinds are all integers can be stripped.

Everything that reads a stripped node goes through these.
-/

namespace DeclCatalogue.Node

open Json (lookup find? setField EachObject)

/-! ## Bookkeeping -/

theorem isBookkeeping_kind : isBookkeeping "kind" = false := by decide

theorem isBookkeeping_name : isBookkeeping "name" = false := by decide

theorem isBookkeeping_text : isBookkeeping "text" = false := by decide

theorem isBookkeeping_left : isBookkeeping "left" = false := by decide

theorem isBookkeeping_right : isBookkeeping "right" = false := by decide

theorem find?_eq_none_or_some (key : String) (fields : Fields) :
    (find? key fields = none ∧ lookup key fields = .null) ∨
      find? key fields = some (lookup key fields) := by
  rw [Json.lookup_eq_getD_find?]
  cases find? key fields with
  | none => exact .inl ⟨rfl, rfl⟩
  | some v => exact .inr rfl

/-! ## Fields -/

section Fields

variable {table : KindTable} {fields kept : Fields}

theorem stripFields_cons_of_bookkeeping {key : String} (h : isBookkeeping key = true) (v : Json)
    (rest : Fields) : stripFields table ((key, v) :: rest) = stripFields table rest := by
  rw [stripFields, if_pos h]

/-- A field that is no bookkeeping is kept with its value stripped. -/
theorem stripFields_cons_ok {key : String} {v : Json} {rest kept : Fields}
    (hkey : isBookkeeping key = false) (h : stripFields table ((key, v) :: rest) = .ok kept) :
    ∃ v' rest', strip table v = .ok v' ∧ stripFields table rest = .ok rest' ∧
      kept = (key, v') :: rest' := by
  rw [stripFields, if_neg (by simp [hkey])] at h
  cases hv : strip table v with
  | error fault => rw [hv] at h; cases h
  | ok v' =>
    cases hrest : stripFields table rest with
    | error fault => rw [hv, hrest] at h; cases h
    | ok rest' =>
      rw [hv, hrest] at h
      exact ⟨v', rest', rfl, rfl, (Except.ok.inj h).symm⟩

/-- What is kept is no bookkeeping, and it is the stripped value of a field of that name. -/
theorem mem_stripFields (h : stripFields table fields = .ok kept) :
    ∀ f ∈ kept, isBookkeeping f.1 = false ∧ ∃ v, (f.1, v) ∈ fields ∧ strip table v = .ok f.2 := by
  induction fields generalizing kept with
  | nil =>
    obtain rfl : [] = kept := Except.ok.inj h
    intro f hf
    cases hf
  | cons g rest ih =>
    obtain ⟨key, v⟩ := g
    by_cases hkey : isBookkeeping key = true
    · rw [stripFields_cons_of_bookkeeping hkey] at h
      intro f hf
      obtain ⟨hclean, u, hu, hstrip⟩ := ih h f hf
      exact ⟨hclean, u, List.mem_cons_of_mem _ hu, hstrip⟩
    · have hkey : isBookkeeping key = false := by simpa using hkey
      obtain ⟨v', rest', hv, hrest, rfl⟩ := stripFields_cons_ok hkey h
      intro f hf
      rcases List.mem_cons.mp hf with rfl | hf
      · exact ⟨hkey, v, List.mem_cons_self .., hv⟩
      · obtain ⟨hclean, u, hu, hstrip⟩ := ih hrest f hf
        exact ⟨hclean, u, List.mem_cons_of_mem _ hu, hstrip⟩

/-- What is found under a name that is no bookkeeping is found stripped among the kept fields. -/
theorem find?_stripFields {key : String} (hkey : isBookkeeping key = false)
    (h : stripFields table fields = .ok kept) :
    Option.Rel (fun v w => strip table v = .ok w) (find? key fields) (find? key kept) := by
  induction fields generalizing kept with
  | nil =>
    obtain rfl : [] = kept := Except.ok.inj h
    exact .none
  | cons g rest ih =>
    obtain ⟨k, v⟩ := g
    by_cases hk : isBookkeeping k = true
    · -- what is dropped is not what is looked for
      have hne : k ≠ key := by
        rintro rfl
        rw [hkey] at hk
        cases hk
      rw [stripFields_cons_of_bookkeeping hk] at h
      rw [find?, if_neg hne]
      exact ih h
    · have hk : isBookkeeping k = false := by simpa using hk
      obtain ⟨v', rest', hv, hrest, rfl⟩ := stripFields_cons_ok hk h
      rw [find?, find?]
      split
      · exact .some hv
      · exact ih hrest

/-- Looking up and stripping can change places. -/
theorem lookup_stripFields {key : String} (hkey : isBookkeeping key = false)
    (h : stripFields table fields = .ok kept) :
    strip table (lookup key fields) = .ok (lookup key kept) := by
  have hfound := find?_stripFields hkey h
  rw [Json.lookup_eq_getD_find?, Json.lookup_eq_getD_find?]
  revert hfound
  generalize find? key fields = before
  generalize find? key kept = after
  rintro (hstrip | _)
  · exact hstrip
  · rfl

end Fields

/-! ## Lists -/

/-- The items of a stripped list are the stripped items, in order. -/
theorem forall₂_stripItems {table : KindTable} {vs ws : List Json}
    (h : stripItems table vs = .ok ws) : List.Forall₂ (fun v w => strip table v = .ok w) vs ws := by
  induction vs generalizing ws with
  | nil =>
    obtain rfl : [] = ws := Except.ok.inj h
    exact .nil
  | cons v rest ih =>
    rw [stripItems] at h
    cases hv : strip table v with
    | error fault => rw [hv] at h; cases h
    | ok v' =>
      cases hrest : stripItems table rest with
      | error fault => rw [hv, hrest] at h; cases h
      | ok rest' =>
        rw [hv, hrest] at h
        obtain rfl : v' :: rest' = ws := Except.ok.inj h
        exact .cons hv (ih hrest)

/-- Of two lists that are related item by item, each item of the second one has one of the first. -/
theorem forall₂_mem_right {α β : Type} {R : α → β → Prop} {xs : List α} {ys : List β}
    (h : List.Forall₂ R xs ys) {y : β} (hy : y ∈ ys) : ∃ x ∈ xs, R x y := by
  induction h with
  | nil => cases hy
  | @cons x _ _ _ hxy _ ih =>
    rcases List.mem_cons.mp hy with rfl | hy
    · exact ⟨x, List.mem_cons_self .., hxy⟩
    · obtain ⟨u, hu, huy⟩ := ih hy
      exact ⟨u, List.mem_cons_of_mem _ hu, huy⟩

theorem mem_stripItems {table : KindTable} {vs ws : List Json} (h : stripItems table vs = .ok ws) :
    ∀ w ∈ ws, ∃ v ∈ vs, strip table v = .ok w :=
  fun _ hw => forall₂_mem_right (forall₂_stripItems h) hw

/-! ## Kinds -/

/-- Naming the kind of an object replaces its kind by the name, and nothing else. -/
theorem nameKind_ok {table : KindTable} {kept named : Fields} (h : nameKind table kept = .ok named) :
    ∃ name, table.orStandard.nameOf (lookup "kind" kept) = .ok name ∧
      lookup "kind" named = Json.ofText? name ∧
      (named = kept ∨ named = setField "kind" (Json.ofText? name) kept) := by
  unfold nameKind at h
  rcases find?_eq_none_or_some "kind" kept with ⟨hfind, hnull⟩ | hfind
  · rw [hfind] at h
    obtain rfl : kept = named := Except.ok.inj h
    exact ⟨none, by rw [hnull]; rfl, hnull, .inl rfl⟩
  · rw [hfind] at h
    dsimp only at h
    cases hname : table.orStandard.nameOf (lookup "kind" kept) with
    | error fault => rw [hname] at h; cases h
    | ok name =>
      rw [hname] at h
      obtain rfl : setField "kind" (Json.ofText? name) kept = named := Except.ok.inj h
      exact ⟨name, rfl, Json.lookup_setField_self .., .inr rfl⟩

theorem lookup_of_named {kept named : Fields} {name : Option String}
    (h : named = kept ∨ named = setField "kind" (Json.ofText? name) kept) {key : String}
    (hkey : key ≠ "kind") : lookup key named = lookup key kept := by
  rcases h with rfl | rfl
  · rfl
  · exact Json.lookup_setField_of_ne hkey _ _

/-! ## Objects -/

/-- A stripped object is an object: its kept fields, with the kind named. -/
theorem strip_obj_ok {table : KindTable} {fields : Fields} {v : Json}
    (h : strip table (.obj fields) = .ok v) :
    ∃ kept named, stripFields table fields = .ok kept ∧ nameKind table kept = .ok named ∧
      v = .obj named := by
  rw [strip] at h
  cases hkept : stripFields table fields with
  | error fault => rw [hkept] at h; cases h
  | ok kept =>
    cases hnamed : nameKind table kept with
    | error fault =>
      rw [hkept] at h
      simp only [bind, Except.bind, hnamed] at h
      cases h
    | ok named =>
      rw [hkept] at h
      simp only [bind, Except.bind, hnamed] at h
      exact ⟨kept, named, rfl, hnamed, (Except.ok.inj h).symm⟩

theorem strip_arr_ok {table : KindTable} {vs : List Json} {v : Json}
    (h : strip table (.arr vs) = .ok v) : ∃ ws, stripItems table vs = .ok ws ∧ v = .arr ws := by
  rw [strip] at h
  cases hws : stripItems table vs with
  | error fault => rw [hws] at h; cases h
  | ok ws =>
    rw [hws] at h
    exact ⟨ws, rfl, (Except.ok.inj h).symm⟩

/-- A kind is named before and after it is stripped alike: a list or an object has no name. -/
theorem nameOf_strip {table names : KindTable} {kind kept : Json}
    (h : strip table kind = .ok kept) : names.nameOf kept = names.nameOf kind := by
  cases kind with
  | arr vs =>
    obtain ⟨ws, -, rfl⟩ := strip_arr_ok h
    rfl
  | obj fields =>
    obtain ⟨_, out, -, -, rfl⟩ := strip_obj_ok h
    rfl
  | _ => rw [Except.ok.inj h]

section Stripped

variable {table : KindTable} {fields out : Fields}

/-- **What a stripped object holds.** Under every name that is neither bookkeeping nor the kind it
holds the stripped value. -/
theorem strip_fields (h : strip table (.obj fields) = .ok (.obj out)) {key : String}
    (hkey : isBookkeeping key = false) (hne : key ≠ "kind") :
    strip table (lookup key fields) = .ok (lookup key out) := by
  obtain ⟨kept, named, hkept, hnamed, heq⟩ := strip_obj_ok h
  obtain rfl : out = named := Json.obj.inj heq
  obtain ⟨name, -, -, hcases⟩ := nameKind_ok hnamed
  rw [lookup_of_named hcases hne]
  exact lookup_stripFields hkey hkept

/-- The kind of a stripped object is the name of the object's kind. -/
theorem strip_kind (h : strip table (.obj fields) = .ok (.obj out)) :
    ∃ name, table.kindName (.obj fields) = .ok name ∧ lookup "kind" out = Json.ofText? name := by
  obtain ⟨kept, named, hkept, hnamed, heq⟩ := strip_obj_ok h
  obtain rfl : out = named := Json.obj.inj heq
  obtain ⟨name, hname, hkind, -⟩ := nameKind_ok hnamed
  refine ⟨name, ?_, hkind⟩
  rw [KindTable.kindName, ← nameOf_strip (lookup_stripFields isBookkeeping_kind hkept)]
  exact hname

/-- No field of a stripped object is bookkeeping. -/
theorem strip_noBookkeeping (h : strip table (.obj fields) = .ok (.obj out)) :
    ∀ f ∈ out, isBookkeeping f.1 = false := by
  obtain ⟨kept, named, hkept, hnamed, heq⟩ := strip_obj_ok h
  obtain rfl : out = named := Json.obj.inj heq
  obtain ⟨name, -, -, rfl | rfl⟩ := nameKind_ok hnamed
  · exact fun f hf => (mem_stripFields hkept f hf).1
  · intro f hf
    rcases Json.mem_setField hf with rfl | hf
    · exact isBookkeeping_kind
    · exact (mem_stripFields hkept f hf).1

end Stripped

/-! ## Values that may be missing -/

/-- An object that may be missing is one that may be missing once it is stripped. -/
theorem strip_maybeObject {table : KindTable} {v w : Json} (hv : v.MaybeObject)
    (h : strip table v = .ok w) : w.MaybeObject := by
  rcases hv with rfl | ⟨fields, rfl⟩
  · exact .inl (Except.ok.inj h).symm
  · obtain ⟨_, out, -, -, rfl⟩ := strip_obj_ok h
    exact .inr ⟨out, rfl⟩

/-- Stripped objects are objects, one for each. -/
theorem strip_objects {table : KindTable} {objects : List Fields} {ws : List Json}
    (h : List.Forall₂ (fun v w => strip table v = .ok w) (objects.map .obj) ws) :
    ∃ stripped : List Fields, ws = stripped.map .obj ∧
      List.Forall₂ (fun o out => strip table (.obj o) = .ok (.obj out)) objects stripped := by
  induction objects generalizing ws with
  | nil =>
    cases h
    exact ⟨[], rfl, .nil⟩
  | cons o rest ih =>
    cases h with
    | cons hfirst hrest =>
      obtain ⟨_, out, -, -, rfl⟩ := strip_obj_ok hfirst
      obtain ⟨stripped, rfl, hstripped⟩ := ih hrest
      exact ⟨out :: stripped, rfl, .cons hfirst hstripped⟩

/-- A list of objects that may be missing, once it is stripped. -/
theorem strip_maybeObjects {table : KindTable} {v w : Json} {objects : List Fields}
    (hv : v.MaybeObjects objects) (h : strip table v = .ok w) :
    ∃ stripped : List Fields, w.MaybeObjects stripped ∧
      List.Forall₂ (fun o out => strip table (.obj o) = .ok (.obj out)) objects stripped := by
  rcases hv with ⟨rfl, rfl⟩ | rfl
  · exact ⟨[], .inl ⟨(Except.ok.inj h).symm, rfl⟩, .nil⟩
  · obtain ⟨ws, hws, rfl⟩ := strip_arr_ok h
    obtain ⟨stripped, rfl, hstripped⟩ := strip_objects (forall₂_stripItems hws)
    exact ⟨stripped, .inr rfl, hstripped⟩

/-! ## Clean values -/

/-- The fields of an object without bookkeeping, whose kind is a name or null. -/
def IsClean (fields : Fields) : Prop :=
  (∀ f ∈ fields, isBookkeeping f.1 = false) ∧
    (lookup "kind" fields = .null ∨ ∃ name, lookup "kind" fields = .str name)

theorem ofText?_null_or_str (name : Option String) :
    Json.ofText? name = .null ∨ ∃ s, Json.ofText? name = .str s := by
  cases name with
  | none => exact .inl rfl
  | some s => exact .inr ⟨s, rfl⟩

/-- What stripping makes of the properties of objects: if a stripped object has a property because
the object had one, every object in a stripped value has it because every object in the value did. -/
theorem strip_eachObject {table : KindTable} {P Q : Fields → Prop}
    (hself : ∀ {fields out : Fields}, strip table (.obj fields) = .ok (.obj out) → P fields → Q out)
    (v : Json) : ∀ {w : Json}, strip table v = .ok w → v.EachObject P → w.EachObject Q := by
  induction v using Json.induct with
  | arr items ih =>
    intro w h hv
    obtain ⟨ws, hws, rfl⟩ := strip_arr_ok h
    refine Json.eachObject_arr.mpr fun u hu => ?_
    obtain ⟨v, hmem, hstrip⟩ := mem_stripItems hws u hu
    exact ih v hmem hstrip (Json.eachObject_arr.mp hv v hmem)
  | obj fields ih =>
    intro w h hv
    obtain ⟨kept, named, hkept, hnamed, rfl⟩ := strip_obj_ok h
    obtain ⟨hobject, hfields⟩ := Json.eachObject_obj.mp hv
    obtain ⟨name, -, -, hcases⟩ := nameKind_ok hnamed
    refine Json.eachObject_obj.mpr ⟨hself h hobject, fun f hf => ?_⟩
    -- naming the kind adds no object
    have hmem : f ∈ kept ∨ f = ("kind", Json.ofText? name) := by
      rcases hcases with rfl | rfl
      · exact .inl hf
      · exact (Json.mem_setField hf).symm
    rcases hmem with hmem | rfl
    · obtain ⟨-, u, hu, hstrip⟩ := mem_stripFields hkept f hmem
      exact ih _ hu hstrip (hfields _ hu)
    · rcases ofText?_null_or_str name with hnull | ⟨s, hs⟩
      · rw [hnull]; exact Json.eachObject_null
      · rw [hs]; exact Json.eachObject_str s
  | _ =>
    intro w h _
    obtain rfl := Except.ok.inj h
    simp

/-- **Stripped values are clean.** Every object in one is without bookkeeping and has a name or
null for its kind. -/
theorem strip_clean (table : KindTable) (v : Json) {w : Json} (h : strip table v = .ok w) :
    w.EachObject IsClean := by
  refine strip_eachObject (P := fun _ => True) (fun hstrip _ => ?_) v h fun _ _ => trivial
  obtain ⟨name, -, hkind⟩ := strip_kind hstrip
  refine ⟨strip_noBookkeeping hstrip, ?_⟩
  rw [hkind]
  exact ofText?_null_or_str name

theorem stripItems_of_forall {table : KindTable} {vs : List Json}
    (h : ∀ v ∈ vs, strip table v = .ok v) : stripItems table vs = .ok vs := by
  induction vs with
  | nil => rfl
  | cons v rest ih =>
    rw [stripItems, h v (List.mem_cons_self ..), ih fun u hu => h u (List.mem_cons_of_mem _ hu)]
    rfl

theorem stripFields_of_forall {table : KindTable} {fields : Fields}
    (hbook : ∀ f ∈ fields, isBookkeeping f.1 = false)
    (h : ∀ f ∈ fields, strip table f.2 = .ok f.2) : stripFields table fields = .ok fields := by
  induction fields with
  | nil => rfl
  | cons f rest ih =>
    obtain ⟨key, v⟩ := f
    have hrest := ih (fun g hg => hbook g (List.mem_cons_of_mem _ hg))
      fun g hg => h g (List.mem_cons_of_mem _ hg)
    rw [stripFields, hbook _ (List.mem_cons_self ..), h _ (List.mem_cons_self ..), hrest]
    rfl

/-- **Clean values are stripped to themselves,** whatever table names the kinds. -/
theorem strip_of_clean (table : KindTable) (v : Json) :
    v.EachObject IsClean → strip table v = .ok v := by
  induction v using Json.induct with
  | arr vs ih =>
    intro h
    rw [strip, stripItems_of_forall fun v hv => ih v hv (Json.eachObject_arr.mp h v hv)]
    rfl
  | obj fields ih =>
    intro h
    obtain ⟨⟨hbook, hkind⟩, hfields⟩ := Json.eachObject_obj.mp h
    -- a kind that is a name or null keeps its name
    have hnamed : nameKind table fields = .ok fields := by
      unfold nameKind
      rcases find?_eq_none_or_some "kind" fields with ⟨hfind, -⟩ | hfind
      · rw [hfind]
      · rw [hfind]
        rcases hkind with hnull | ⟨name, hname⟩
        · rw [hnull] at hfind ⊢
          exact congrArg Except.ok (Json.setField_self hfind)
        · rw [hname] at hfind ⊢
          exact congrArg Except.ok (Json.setField_self hfind)
    rw [strip, stripFields_of_forall hbook fun f hf => ih f hf (hfields f hf)]
    show (do let named ← nameKind table fields; pure (Json.obj named)) = _
    rw [hnamed]
    rfl
  | _ => exact fun _ => rfl

/-! ## Names -/

/-- The fields of an object whose texts are neither lists nor objects. -/
def HasPlainTexts (fields : Fields) : Prop :=
  (lookup "text" fields).isKey = true ∧ (lookup "escapedText" fields).isKey = true

instance : DecidablePred HasPlainTexts := fun _ => inferInstanceAs (Decidable (_ ∧ _))

theorem strip_of_isKey {table : KindTable} {v : Json} (h : v.isKey = true) :
    strip table v = .ok v := by
  cases v with
  | arr vs => cases h
  | obj fields => cases h
  | _ => rfl

/-- A plain text is looked up unchanged. -/
theorem lookup_strip_of_isKey {table : KindTable} {fields out : Fields} {key : String}
    (h : strip table (.obj fields) = .ok (.obj out)) (hkey : isBookkeeping key = false)
    (hne : key ≠ "kind") (hplain : (lookup key fields).isKey = true) :
    lookup key out = lookup key fields := by
  have hstrip := strip_fields h hkey hne
  rw [strip_of_isKey hplain] at hstrip
  exact (Except.ok.inj hstrip).symm

/-- An identifier has the same text before and after stripping. -/
theorem identifierText_strip {table : KindTable} {v w : Json} (h : strip table v = .ok w)
    (hplain : v.EachObject HasPlainTexts) : identifierText w = identifierText v := by
  cases v with
  | arr vs =>
    obtain ⟨ws, -, rfl⟩ := strip_arr_ok h
    rfl
  | obj fields =>
    obtain ⟨kept, out, -, -, rfl⟩ := strip_obj_ok h
    obtain ⟨htext, hescaped⟩ := (Json.eachObject_obj.mp hplain).1
    simp only [identifierText]
    rw [lookup_strip_of_isKey h (by decide) (by decide) htext,
      lookup_strip_of_isKey h (by decide) (by decide) hescaped]
  | _ =>
    obtain rfl := Except.ok.inj h
    rfl

/-- A name, dotted or not, is the same before and after stripping. -/
theorem entityName_strip {table : KindTable} (v : Json) :
    ∀ {w : Json}, strip table v = .ok w → v.EachObject HasPlainTexts →
      entityName w = entityName v := by
  induction v using Json.induct_lookup with
  | arr vs ih =>
    intro w h _
    obtain ⟨ws, -, rfl⟩ := strip_arr_ok h
    rfl
  | obj fields ih =>
    intro w h hplain
    obtain ⟨kept, out, -, -, rfl⟩ := strip_obj_ok h
    -- all four fields that a name can be made of are found again, stripped
    have hfield : ∀ key, isBookkeeping key = false → key ≠ "kind" →
        entityName (lookup key out) = entityName (lookup key fields) := by
      intro key hkey hne
      exact ih key (strip_fields h hkey hne) (hplain.lookup key)
    rw [entityName_obj, entityName_obj, identifierText_strip h hplain,
      hfield "left" (by decide) (by decide), hfield "right" (by decide) (by decide),
      hfield "expression" (by decide) (by decide), hfield "name" (by decide) (by decide)]
  | _ =>
    intro w h _
    obtain rfl := Except.ok.inj h
    rfl

/-! ## When stripping succeeds -/

/-- The fields of an object whose kind is an integer. -/
def HasIntegerKind (fields : Fields) : Prop :=
  ∃ n, lookup "kind" fields = .int n

theorem stripItems_total {table : KindTable} {vs : List Json}
    (h : ∀ v ∈ vs, ∃ w, strip table v = .ok w) : ∃ ws, stripItems table vs = .ok ws := by
  induction vs with
  | nil => exact ⟨[], rfl⟩
  | cons v rest ih =>
    obtain ⟨w, hw⟩ := h v (List.mem_cons_self ..)
    obtain ⟨ws, hws⟩ := ih fun u hu => h u (List.mem_cons_of_mem _ hu)
    exact ⟨w :: ws, by rw [stripItems, hw, hws]; rfl⟩

theorem stripFields_total {table : KindTable} {fields : Fields}
    (h : ∀ f ∈ fields, ∃ w, strip table f.2 = .ok w) :
    ∃ kept, stripFields table fields = .ok kept := by
  induction fields with
  | nil => exact ⟨[], rfl⟩
  | cons f rest ih =>
    obtain ⟨key, v⟩ := f
    obtain ⟨w, hw⟩ := h (key, v) (List.mem_cons_self ..)
    obtain ⟨kept, hkept⟩ := ih fun g hg => h g (List.mem_cons_of_mem _ hg)
    rw [stripFields]
    split
    · exact ⟨kept, hkept⟩
    · exact ⟨(key, w) :: kept, by rw [hw, hkept]; rfl⟩

/-- **Integer kinds can always be named,** so a value in which all kinds are integers can be
stripped. -/
theorem strip_total (table : KindTable) (v : Json) :
    v.EachObject HasIntegerKind → ∃ w, strip table v = .ok w := by
  induction v using Json.induct with
  | arr vs ih =>
    intro h
    obtain ⟨ws, hws⟩ := stripItems_total fun v hv => ih v hv (Json.eachObject_arr.mp h v hv)
    exact ⟨.arr ws, by rw [strip, hws]; rfl⟩
  | obj fields ih =>
    intro h
    obtain ⟨⟨n, hn⟩, hfields⟩ := Json.eachObject_obj.mp h
    obtain ⟨kept, hkept⟩ := stripFields_total fun f hf => ih f hf (hfields f hf)
    have hkind : lookup "kind" kept = .int n := by
      have hraw := lookup_stripFields isBookkeeping_kind hkept
      rw [hn] at hraw
      exact (Except.ok.inj hraw).symm
    have hnamed : ∃ named, nameKind table kept = .ok named := by
      unfold nameKind
      rcases find?_eq_none_or_some "kind" kept with ⟨hfind, -⟩ | hfind
      · rw [hfind]; exact ⟨kept, rfl⟩
      · rw [hfind, hkind]; exact ⟨_, rfl⟩
    obtain ⟨named, hnamed⟩ := hnamed
    exact ⟨.obj named, by rw [strip, hkept]; simp only [bind, Except.bind, hnamed]; rfl⟩
  | _ => exact fun _ => ⟨_, rfl⟩

end DeclCatalogue.Node
