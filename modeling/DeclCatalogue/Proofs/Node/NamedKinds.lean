import DeclCatalogue.Proofs.Node.Strip

/-!
# Numbers and names of kinds

A kind is a number to a parser and a name to everyone else. `Node.nameKindsAt` puts the name that a
table gives a kind in the place of the number, in the objects of a value that stand at the chosen
places. A place is the list of positions on the way down, through lists and objects; any set of
places can be chosen, and a kind that is no number, or that the table cannot name, stays.

Nothing that is read of a node with the help of this table depends on the choice: its kind has the
same name (`kindName_nameKindsAt`), and stripped it is the same (`strip_nameKindsAt`).
-/

namespace DeclCatalogue

open Json (lookup find? setField EachObject)

/-- Whether a value is a number where a kind stands: truth values count as numbers. -/
def Json.isTagged : Json → Bool
  | .bool _ | .int _ | .real _ => true
  | _ => false

namespace Node

/-- An object with the name of its kind in place of the number, if the table gives it one. -/
def nameTag (kinds : KindTable) (fields : Fields) : Fields :=
  match (lookup "kind" fields).isTagged, kinds.kindName (.obj fields) with
  | true, .ok (some name) => setField "kind" (.str name) fields
  | _, _ => fields

mutual
/-- A value with the names of kinds in place of their numbers in the objects at chosen places. -/
def nameKindsAt (kinds : KindTable) (chosen : List Nat → Bool) : Json → Json
  | .arr vs => .arr (nameItemsAt kinds chosen 0 vs)
  | .obj fields =>
    let inner := nameFieldsAt kinds chosen 0 fields
    .obj (if chosen [] then nameTag kinds inner else inner)
  | v => v

/-- The same for the items of a list from a position on. -/
def nameItemsAt (kinds : KindTable) (chosen : List Nat → Bool) (position : Nat) :
    List Json → List Json
  | [] => []
  | v :: rest =>
    nameKindsAt kinds (fun place => chosen (position :: place)) v
      :: nameItemsAt kinds chosen (position + 1) rest

/-- The same for the values of fields from a position on. -/
def nameFieldsAt (kinds : KindTable) (chosen : List Nat → Bool) (position : Nat) : Fields → Fields
  | [] => []
  | (key, v) :: rest =>
    (key, nameKindsAt kinds (fun place => chosen (position :: place)) v)
      :: nameFieldsAt kinds chosen (position + 1) rest
end

variable {kinds : KindTable} {chosen : List Nat → Bool} {fields : Fields}

/-- The fields of an object after the kinds in it are named. -/
def namedAt (kinds : KindTable) (chosen : List Nat → Bool) (fields : Fields) : Fields :=
  let inner := nameFieldsAt kinds chosen 0 fields
  if chosen [] then nameTag kinds inner else inner

theorem nameKindsAt_obj :
    nameKindsAt kinds chosen (.obj fields) = .obj (namedAt kinds chosen fields) := by
  rw [nameKindsAt]
  rfl

/-! ## Looking into the value -/

theorem nameKindsAt_of_isKey {v : Json} (h : v.isKey = true) : nameKindsAt kinds chosen v = v := by
  cases v with
  | arr vs => cases h
  | obj fields => cases h
  | _ => rfl

/-- Naming the kind of an object either leaves it as it is or replaces a number by its name. -/
theorem nameTag_cases (kinds : KindTable) (fields : Fields) :
    nameTag kinds fields = fields ∨ ∃ name, (lookup "kind" fields).isTagged = true ∧
      kinds.kindName (.obj fields) = .ok (some name) ∧
      nameTag kinds fields = setField "kind" (.str name) fields := by
  unfold nameTag
  split
  next name htag hname => exact .inr ⟨name, htag, hname, rfl⟩
  next => exact .inl rfl

theorem lookup_nameTag {key : String} (hkey : key ≠ "kind") (kinds : KindTable) (fields : Fields) :
    lookup key (nameTag kinds fields) = lookup key fields := by
  rcases nameTag_cases kinds fields with heq | ⟨name, -, -, heq⟩
  · rw [heq]
  · rw [heq, Json.lookup_setField_of_ne hkey]

/-- What is looked up is what was there, with kinds named at some places. -/
theorem lookup_nameFieldsAt (key : String) (position : Nat) :
    ∃ inner, lookup key (nameFieldsAt kinds chosen position fields) =
      nameKindsAt kinds inner (lookup key fields) := by
  induction fields generalizing position with
  | nil => exact ⟨chosen, rfl⟩
  | cons f rest ih =>
    obtain ⟨k, v⟩ := f
    rw [nameFieldsAt]
    simp only [Json.lookup_cons]
    split
    · exact ⟨_, rfl⟩
    · exact ih (position + 1)

/-- Under any other name than the kind an object holds what it held, with kinds named at some
places. -/
theorem lookup_namedAt {key : String} (hkey : key ≠ "kind") :
    ∃ inner, lookup key (namedAt kinds chosen fields) =
      nameKindsAt kinds inner (lookup key fields) := by
  unfold namedAt
  dsimp only
  split
  · rw [lookup_nameTag hkey]
    exact lookup_nameFieldsAt key 0
  · exact lookup_nameFieldsAt key 0

/-- An object has as many fields as before, and a list as many items. -/
theorem truthy_nameKindsAt (v : Json) : (nameKindsAt kinds chosen v).truthy = v.truthy := by
  cases v with
  | arr vs => cases vs <;> rfl
  | obj fields =>
    have htag : ∀ f (rest : Fields), (nameTag kinds (f :: rest)).isEmpty = false := by
      intro f rest
      rcases nameTag_cases kinds (f :: rest) with heq | ⟨name, -, -, heq⟩
      · rw [heq]
        rfl
      · rw [heq, setField]
        split <;> rfl
    rw [nameKindsAt_obj]
    unfold namedAt
    cases fields with
    | nil => split <;> rfl
    | cons f rest =>
      rw [nameFieldsAt]
      dsimp only [Json.truthy]
      split
      · rw [htag]
        rfl
      · rfl
  | _ => rfl

/-! ## Kinds -/

/-- **A kind has the same name,** as a number or as its name. -/
theorem kindName_nameKindsAt (v : Json) :
    kinds.kindName (nameKindsAt kinds chosen v) = kinds.kindName v := by
  cases v with
  | obj fields =>
    have hinner : kinds.kindName (.obj (nameFieldsAt kinds chosen 0 fields)) =
        kinds.kindName (.obj fields) := by
      obtain ⟨inner, hlookup⟩ : ∃ inner, lookup "kind" (nameFieldsAt kinds chosen 0 fields) =
          nameKindsAt kinds inner (lookup "kind" fields) := lookup_nameFieldsAt "kind" 0
      rw [KindTable.kindName, KindTable.kindName, hlookup]
      -- a list or an object has no name, and is a list or an object still
      cases lookup "kind" fields <;> rfl
    rw [nameKindsAt_obj]
    unfold namedAt
    dsimp only
    split
    · rcases nameTag_cases kinds (nameFieldsAt kinds chosen 0 fields) with heq | ⟨name, -, hname, heq⟩
      · rw [heq, hinner]
      · rw [heq, ← hinner, hname, KindTable.kindName, Json.lookup_setField_self]
        rfl
    · exact hinner
  | _ => rfl

/-! ## Stripping -/

theorem stripItems_nameItemsAt {vs : List Json} (position : Nat)
    (h : ∀ v ∈ vs, ∀ inner, strip kinds (nameKindsAt kinds inner v) = strip kinds v) :
    stripItems kinds (nameItemsAt kinds chosen position vs) = stripItems kinds vs := by
  induction vs generalizing position with
  | nil => rfl
  | cons v rest ih =>
    rw [nameItemsAt, stripItems, stripItems, h v (List.mem_cons_self ..),
      ih (position + 1) fun u hu => h u (List.mem_cons_of_mem _ hu)]

theorem stripFields_nameFieldsAt (position : Nat)
    (h : ∀ f ∈ fields, ∀ inner, strip kinds (nameKindsAt kinds inner f.2) = strip kinds f.2) :
    stripFields kinds (nameFieldsAt kinds chosen position fields) = stripFields kinds fields := by
  induction fields generalizing position with
  | nil => rfl
  | cons f rest ih =>
    obtain ⟨key, v⟩ := f
    have hrest := ih (position + 1) fun g hg => h g (List.mem_cons_of_mem _ hg)
    rw [nameFieldsAt, stripFields, stripFields, hrest, h (key, v) (List.mem_cons_self ..)]

/-- A plain kind can be replaced by another one before the fields are stripped or afterwards. -/
theorem stripFields_setKind {table : KindTable} (name : String)
    (hplain : (lookup "kind" fields).isKey = true) (hthere : lookup "kind" fields ≠ .null) :
    stripFields table (setField "kind" (.str name) fields) =
      (stripFields table fields).map (setField "kind" (.str name)) := by
  induction fields with
  | nil => exact absurd rfl hthere
  | cons f rest ih =>
    obtain ⟨key, v⟩ := f
    rw [Json.lookup_cons] at hplain hthere
    rw [setField]
    by_cases hkey : key = "kind"
    · subst hkey
      rw [if_pos rfl] at hplain hthere ⊢
      have hstrip : ∀ u : Json, u.isKey = true → stripFields table (("kind", u) :: rest) =
          (stripFields table rest).map (("kind", u) :: ·) := by
        intro u hu
        rw [stripFields, if_neg (by decide), strip_of_isKey hu]
        cases stripFields table rest <;> rfl
      rw [hstrip _ rfl, hstrip v hplain]
      cases stripFields table rest <;> rfl
    · rw [if_neg hkey] at hplain hthere ⊢
      have hrest := ih hplain hthere
      rw [stripFields, stripFields, hrest]
      split
      · rfl
      · cases strip table v with
        | error fault => rfl
        | ok u =>
          cases stripFields table rest with
          | error fault => rfl
          | ok kept =>
            show Except.ok _ = Except.ok _
            rw [setField, if_neg hkey]

/-- A kind that is there is replaced by its name. -/
theorem nameKind_of_ne_null {table : KindTable} {name : Option String}
    (hthere : lookup "kind" fields ≠ .null)
    (hname : table.orStandard.nameOf (lookup "kind" fields) = .ok name) :
    nameKind table fields = .ok (setField "kind" (Json.ofText? name) fields) := by
  rcases find?_eq_none_or_some "kind" fields with ⟨-, hnull⟩ | hfind
  · exact absurd hnull hthere
  · unfold nameKind
    rw [hfind]
    dsimp only
    rw [hname]
    rfl

/-- Replacing a kind by a name and then by the name of that is replacing it once. -/
theorem nameKind_setField (table : KindTable) (name : String) (fields : Fields) :
    nameKind table (setField "kind" (.str name) fields) =
      .ok (setField "kind" (.str name) fields) := by
  have hkind : lookup "kind" (setField "kind" (.str name) fields) = .str name :=
    Json.lookup_setField_self ..
  have hthere : lookup "kind" (setField "kind" (.str name) fields) ≠ .null := by
    rw [hkind]
    exact Json.noConfusion
  have hname : table.orStandard.nameOf (lookup "kind" (setField "kind" (.str name) fields)) =
      .ok (some name) := by
    rw [hkind]
    rfl
  rw [nameKind_of_ne_null hthere hname]
  rcases find?_eq_none_or_some "kind" (setField "kind" (.str name) fields) with ⟨-, hnull⟩ | hfind
  · exact absurd hnull hthere
  · rw [hkind] at hfind
    exact congrArg Except.ok (Json.setField_self hfind)

/-- Naming the kind of an object and stripping it is stripping it. -/
theorem strip_nameTag (fields : Fields) :
    strip kinds (.obj (nameTag kinds fields)) = strip kinds (.obj fields) := by
  rcases nameTag_cases kinds fields with heq | ⟨name, htag, hname, heq⟩
  · rw [heq]
  · have hplain : (lookup "kind" fields).isKey = true ∧ lookup "kind" fields ≠ .null := by
      cases hkind : lookup "kind" fields with
      | bool b => exact ⟨rfl, Json.noConfusion⟩
      | int n => exact ⟨rfl, Json.noConfusion⟩
      | real x => exact ⟨rfl, Json.noConfusion⟩
      | _ => rw [hkind] at htag; cases htag
    rw [heq, strip, strip, stripFields_setKind name hplain.1 hplain.2]
    cases hkept : stripFields kinds fields with
    | error fault => rfl
    | ok kept =>
      -- the kind that is kept is the kind itself, and both ways it is replaced by its name
      have hkind : lookup "kind" kept = lookup "kind" fields := by
        have hraw := lookup_stripFields isBookkeeping_kind hkept
        rw [strip_of_isKey hplain.1] at hraw
        exact (Except.ok.inj hraw).symm
      have hthere : lookup "kind" kept ≠ .null := by
        rw [hkind]
        exact hplain.2
      have hkept : kinds.orStandard.nameOf (lookup "kind" kept) = .ok (some name) := by
        rw [hkind]
        exact hname
      show (do let named ← nameKind kinds (setField "kind" (.str name) kept); pure (Json.obj named))
        = (do let named ← nameKind kinds kept; pure (Json.obj named))
      rw [nameKind_of_ne_null hthere hkept, nameKind_setField]
      rfl

/-- **Stripping names all kinds,** those that are named already and those that are not: the value
with some of its kinds named is stripped to the same, or cannot be stripped for the same reason. -/
theorem strip_nameKindsAt (v : Json) : ∀ chosen : List Nat → Bool,
    strip kinds (nameKindsAt kinds chosen v) = strip kinds v := by
  induction v using Json.induct with
  | arr vs ih =>
    intro chosen
    rw [nameKindsAt, strip, strip, stripItems_nameItemsAt 0 ih]
  | obj fields ih =>
    intro chosen
    have hinner : strip kinds (.obj (nameFieldsAt kinds chosen 0 fields)) =
        strip kinds (.obj fields) := by
      rw [strip, strip, stripFields_nameFieldsAt 0 ih]
    rw [nameKindsAt_obj]
    unfold namedAt
    dsimp only
    split
    · rw [strip_nameTag, hinner]
    · exact hinner
  | _ => exact fun _ => rfl

/-! ## Names -/

/-- An identifier with a plain text has the same text. -/
theorem identifierText_nameKindsAt {v : Json} (h : v.EachObject HasPlainTexts) :
    identifierText (nameKindsAt kinds chosen v) = identifierText v := by
  cases v with
  | obj fields =>
    obtain ⟨htext, hescaped⟩ := (Json.eachObject_obj.mp h).1
    have hplain : ∀ {key}, key ≠ "kind" → (lookup key fields).isKey = true →
        lookup key (namedAt kinds chosen fields) = lookup key fields := by
      intro key hkey hplain
      obtain ⟨inner, hlookup⟩ : ∃ inner, lookup key (namedAt kinds chosen fields) =
          nameKindsAt kinds inner (lookup key fields) := lookup_namedAt hkey
      rw [hlookup, nameKindsAt_of_isKey hplain]
    rw [nameKindsAt_obj, identifierText, identifierText, hplain (by decide) htext,
      hplain (by decide) hescaped]
  | _ => rfl

end Node

end DeclCatalogue
