import DeclCatalogue.Node.Parent
import DeclCatalogue.Node.Name
import DeclCatalogue.Proofs.Json.Keys
import DeclCatalogue.Proofs.Node.Strip
import DeclCatalogue.Proofs.Tree.Schema

/-!
# Links leave a node as it is

Linking sets the `parent` of every object and nothing else. Under any other name an object holds
what it held before, linked in its turn (`lookup_linked`), and since `parent` is bookkeeping a
stripped node knows nothing of links: `strip_linkUnder`.
-/

namespace DeclCatalogue.Node

open Json (lookup find? setField EachObject)

/-- The fields of a linked object. -/
def linked (enclosing : Option Json) (fields : Fields) : Fields :=
  setParent enclosing (linkFields (some (.obj (unlinkFields fields))) fields)

theorem linkUnder_obj (enclosing : Option Json) (fields : Fields) :
    linkUnder enclosing (.obj fields) = .obj (linked enclosing fields) := by
  rw [linkUnder]
  rfl

theorem linkUnder_of_isKey {v : Json} (h : v.isKey = true) (enclosing : Option Json) :
    linkUnder enclosing v = v := by
  cases v with
  | arr vs => cases h
  | obj fields => cases h
  | _ => rfl

theorem find?_setParent {key : String} (hkey : key ≠ "parent") (enclosing : Option Json)
    (fields : Fields) : find? key (setParent enclosing fields) = find? key fields := by
  cases enclosing with
  | none => rfl
  | some parent => exact Json.find?_setField_of_ne hkey parent fields

theorem find?_linkFields {key : String} (hkey : key ≠ "parent") (enclosing : Option Json)
    (fields : Fields) :
    find? key (linkFields enclosing fields) = (find? key fields).map (linkUnder enclosing) := by
  induction fields with
  | nil => rfl
  | cons f rest ih =>
    obtain ⟨k, v⟩ := f
    rw [linkFields, find?, find?]
    split
    next hk =>
      rw [if_neg (hk ▸ hkey)]
      rfl
    next => exact ih

/-- A linked object holds, under every name but `parent`, what it held before, linked, and nothing
else. -/
theorem find?_linked {key : String} (hkey : key ≠ "parent") (enclosing : Option Json)
    (fields : Fields) :
    find? key (linked enclosing fields) =
      (find? key fields).map (linkUnder (some (.obj (unlinkFields fields)))) := by
  unfold linked
  rw [find?_setParent hkey, find?_linkFields hkey]

theorem lookup_linked {key : String} (hkey : key ≠ "parent") (enclosing : Option Json)
    (fields : Fields) :
    lookup key (linked enclosing fields) =
      linkUnder (some (.obj (unlinkFields fields))) (lookup key fields) := by
  rw [Json.lookup_eq_getD_find?, Json.lookup_eq_getD_find?, find?_linked hkey]
  cases find? key fields <;> rfl

/-- What cannot be linked is left alone. -/
theorem lookup_linked_of_isKey {key : String} (hkey : key ≠ "parent") {fields : Fields}
    (h : (lookup key fields).isKey = true) (enclosing : Option Json) :
    lookup key (linked enclosing fields) = lookup key fields := by
  rw [lookup_linked hkey, linkUnder_of_isKey h]

/-! ## Stripping -/

section Strip

variable {table : KindTable}

theorem stripFields_setParent (enclosing : Option Json) (fields : Fields) :
    stripFields table (setParent enclosing fields) = stripFields table fields := by
  have hparent : isBookkeeping "parent" = true := by decide
  cases enclosing with
  | none => rfl
  | some parent =>
    unfold setParent
    dsimp only
    -- the link is set in place of an old one or at the end, and is dropped in either place
    induction fields with
    | nil => rw [setField, stripFields_cons_of_bookkeeping hparent]
    | cons f rest ih =>
      obtain ⟨key, v⟩ := f
      rw [setField]
      split
      next hkey =>
        rw [hkey, stripFields_cons_of_bookkeeping hparent, stripFields_cons_of_bookkeeping hparent]
      next => rw [stripFields, stripFields, ih]

theorem stripFields_linkFields {fields : Fields}
    (h : ∀ f ∈ fields, ∀ enclosing, strip table (linkUnder enclosing f.2) = strip table f.2)
    (enclosing : Option Json) :
    stripFields table (linkFields enclosing fields) = stripFields table fields := by
  induction fields with
  | nil => rfl
  | cons f rest ih =>
    obtain ⟨key, v⟩ := f
    have hrest := ih fun g hg => h g (List.mem_cons_of_mem _ hg)
    by_cases hkey : isBookkeeping key = true
    · rw [linkFields, stripFields_cons_of_bookkeeping hkey, stripFields_cons_of_bookkeeping hkey]
      exact hrest
    · have hne : key ≠ "parent" := by
        rintro rfl
        exact hkey (by decide)
      rw [linkFields, if_neg hne, stripFields, stripFields, hrest,
        h (key, v) (List.mem_cons_self ..) enclosing]

theorem stripItems_linkItems {vs : List Json}
    (h : ∀ v ∈ vs, ∀ enclosing, strip table (linkUnder enclosing v) = strip table v)
    (enclosing : Option Json) :
    stripItems table (linkItems enclosing vs) = stripItems table vs := by
  induction vs with
  | nil => rfl
  | cons v rest ih =>
    rw [linkItems, stripItems, stripItems, h v (List.mem_cons_self ..) enclosing,
      ih fun u hu => h u (List.mem_cons_of_mem _ hu)]

/-- **Stripping takes links away:** a value is the same stripped, linked or not. -/
theorem strip_linkUnder (v : Json) :
    ∀ enclosing, strip table (linkUnder enclosing v) = strip table v := by
  induction v using Json.induct with
  | arr vs ih =>
    intro enclosing
    rw [linkUnder, strip, strip, stripItems_linkItems ih]
  | obj fields ih =>
    intro enclosing
    rw [linkUnder_obj, strip, strip, linked, stripFields_setParent, stripFields_linkFields ih]
  | _ => exact fun _ => rfl

end Strip

/-! ## Nodes that keep to the schema -/

section Conforms

variable {kind : SyntaxKind} {fields : Fields}

/-- The texts of a node are no lists and no objects. -/
theorem hasPlainTexts_of_conformsTo (h : Tree.ConformsTo kind fields) : HasPlainTexts fields := by
  have htext : (lookup "text" fields).isKey = true := by
    by_cases hkind : kind = .identifier
    · have hform : Tree.fieldForm kind "text" = some .name := by rw [hkind]; rfl
      rcases h.lookup hform with hnull | ⟨s, -, -, hs⟩
      · rw [hnull]; rfl
      · rw [hs]; rfl
    · have hform : Tree.fieldForm kind "text" = some .text := by
        show some (if kind = .identifier then _ else _) = _
        rw [if_neg hkind]
      rcases h.lookup hform with hnull | ⟨s, -, hs⟩
      · rw [hnull]; rfl
      · rw [hs]; rfl
  refine ⟨htext, ?_⟩
  rw [h.lookup_of_none rfl]
  rfl

theorem eachObject_hasPlainTexts {v : Json} (h : v.EachObject Tree.Conforms) :
    v.EachObject HasPlainTexts :=
  h.mono fun _ ⟨_, hfields⟩ => hasPlainTexts_of_conformsTo hfields

theorem lookup_kind_linked (h : Tree.ConformsTo kind fields) (enclosing : Option Json) :
    lookup "kind" (linked enclosing fields) = lookup "kind" fields := by
  refine lookup_linked_of_isKey (by decide) ?_ enclosing
  rw [h.kind_eq]
  rfl

theorem lookup_flags_linked (h : Tree.ConformsTo kind fields) (enclosing : Option Json) :
    lookup "flags" (linked enclosing fields) = lookup "flags" fields := by
  refine lookup_linked_of_isKey (by decide) ?_ enclosing
  have hform : Tree.fieldForm kind "flags" = some .integer := rfl
  rcases h.lookup hform with hnull | ⟨n, hn⟩
  · rw [hnull]; rfl
  · rw [hn]; rfl

end Conforms

theorem kindName_linkUnder {table : KindTable} {v : Json} (h : v.EachObject Tree.Conforms)
    (enclosing : Option Json) : table.kindName (linkUnder enclosing v) = table.kindName v := by
  cases v with
  | obj fields =>
    obtain ⟨⟨_, hfields⟩, -⟩ := Json.eachObject_obj.mp h
    rw [linkUnder_obj, KindTable.kindName, KindTable.kindName, lookup_kind_linked hfields]
  | _ => rfl

theorem truthy_linkUnder {v : Json} (h : v.EachObject Tree.Conforms) (enclosing : Option Json) :
    (linkUnder enclosing v).truthy = v.truthy := by
  cases v with
  | obj fields =>
    -- an object without a kind could be empty, and its link would make it count as present
    have hne : ∀ {fs : Fields} {k : SyntaxKind}, lookup "kind" fs = .int k.code →
        (Json.obj fs).truthy = true := by
      intro fs k hk
      exact Json.truthy_of_lookup "kind" (by rw [hk]; exact Json.noConfusion)
    obtain ⟨⟨_, hfields⟩, -⟩ := Json.eachObject_obj.mp h
    have hlinked := lookup_kind_linked hfields enclosing
    rw [linkUnder_obj, hne hfields.kind_eq, hne (hlinked.trans hfields.kind_eq)]
  | arr vs => cases vs <;> rfl
  | _ => rfl

/-- A linked identifier has the text that it had. -/
theorem identifierText_linkUnder {v : Json} (hplain : v.EachObject HasPlainTexts)
    (enclosing : Option Json) : identifierText (linkUnder enclosing v) = identifierText v := by
  cases v with
  | obj fields =>
    obtain ⟨htext, hescaped⟩ := (Json.eachObject_obj.mp hplain).1
    rw [linkUnder_obj]
    simp only [identifierText]
    rw [lookup_linked_of_isKey (by decide) htext, lookup_linked_of_isKey (by decide) hescaped]
  | _ => rfl

end DeclCatalogue.Node
