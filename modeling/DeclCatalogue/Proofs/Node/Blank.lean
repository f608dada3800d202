import DeclCatalogue.Proofs.Node.Strip

/-!
# Nodes without what the parser keeps for itself

A parser keeps offsets, parents and flags in the nodes that it makes. `Node.blank` puts null in
their place: under `pos`, `end` and `parent` in every object, and under `flags` in every object but
those whose kind is called a module, since these alone have flags with a meaning for a walk. Names of
fields stay, so that two values with the same blank form have the same shape and differ only in such
bookkeeping.

What a walk reads does not depend on it: a value and its blank form are the same when stripped
(`strip_blank`), have kinds of the same name (`kindName_blank`) and are present or absent alike
(`truthy_blank`).
-/

namespace DeclCatalogue

open Json (lookup EachObject)

/-- Whether an object with these fields is a module, by the name that the table gives its kind. -/
def KindTable.isModule (kinds : KindTable) (fields : Fields) : Bool :=
  match kinds.kindName (.obj fields) with
  | .ok (some name) => name = SyntaxKind.moduleDeclaration.name
  | _ => false

namespace Node

/-- Whether the value of a field has no part in a walk. The flags of a module have. -/
def isUnread (inModule : Bool) (key : String) : Bool :=
  key = "pos" || key = "end" || key = "parent" || (key = "flags" && !inModule)

mutual
/-- A value with null in place of what a walk does not read. -/
def blank (kinds : KindTable) : Json → Json
  | .arr vs => .arr (blankItems kinds vs)
  | .obj fields => .obj (blankFields kinds (kinds.isModule fields) fields)
  | v => v

/-- The items of a list, each of them blank. -/
def blankItems (kinds : KindTable) : List Json → List Json
  | [] => []
  | v :: rest => blank kinds v :: blankItems kinds rest

/-- The fields of an object that is a module or is not, their values blank. -/
def blankFields (kinds : KindTable) (inModule : Bool) : Fields → Fields
  | [] => []
  | (key, v) :: rest =>
    (key, if isUnread inModule key then .null else blank kinds v)
      :: blankFields kinds inModule rest
end

variable {kinds : KindTable} {fields : Fields}

/-! ## Looking into a blank value -/

theorem lookup_blankFields {inModule : Bool} {key : String} (hkey : isUnread inModule key = false) :
    lookup key (blankFields kinds inModule fields) = blank kinds (lookup key fields) := by
  induction fields with
  | nil => rfl
  | cons f rest ih =>
    obtain ⟨k, v⟩ := f
    rw [blankFields, Json.lookup_cons, Json.lookup_cons]
    dsimp only
    split
    next hk => rw [if_neg (by rw [hk, hkey]; exact Bool.false_ne_true)]
    next => exact ih

theorem blank_of_isKey {v : Json} (h : v.isKey = true) : blank kinds v = v := by
  cases v with
  | arr vs => cases h
  | obj fields => cases h
  | _ => rfl

/-- A plain value is found as it was. -/
theorem lookup_blankFields_of_isKey {inModule : Bool} {key : String}
    (hkey : isUnread inModule key = false) (h : (lookup key fields).isKey = true) :
    lookup key (blankFields kinds inModule fields) = lookup key fields := by
  rw [lookup_blankFields hkey, blank_of_isKey h]

/-- A blank value is present or absent as it was. -/
theorem truthy_blank (v : Json) : (blank kinds v).truthy = v.truthy := by
  cases v with
  | arr vs => cases vs <;> rfl
  | obj fields => cases fields <;> rfl
  | _ => rfl

theorem isUnread_kind (inModule : Bool) : isUnread inModule "kind" = false := by
  cases inModule <;> decide

theorem isUnread_name (inModule : Bool) : isUnread inModule "name" = false := by
  cases inModule <;> decide

theorem isUnread_body (inModule : Bool) : isUnread inModule "body" = false := by
  cases inModule <;> decide

theorem isUnread_statements (inModule : Bool) : isUnread inModule "statements" = false := by
  cases inModule <;> decide

/-! ## Kinds -/

/-- A kind that has a name is neither a list nor an object. -/
theorem isKey_of_kindName_ok {table : KindTable} {name : Option String}
    (h : table.kindName (.obj fields) = .ok name) : (lookup "kind" fields).isKey = true := by
  rw [KindTable.kindName] at h
  cases hkind : lookup "kind" fields with
  | arr vs => rw [hkind] at h; cases h
  | obj fs => rw [hkind] at h; cases h
  | _ => rfl

/-- The kind of a blank value is called what it was called before, by whatever table. -/
theorem kindName_blank (table : KindTable) (v : Json) :
    table.kindName (blank kinds v) = table.kindName v := by
  cases v with
  | obj fields =>
    rw [blank, KindTable.kindName, KindTable.kindName, lookup_blankFields (isUnread_kind _)]
    -- a list or an object has no name, and is a list or an object still
    cases lookup "kind" fields <;> rfl
  | _ => rfl

/-! ## Stripping -/

theorem isBookkeeping_of_isUnread {inModule : Bool} {key : String}
    (h : isUnread inModule key = true) : isBookkeeping key = true := by
  unfold isUnread at h
  unfold isBookkeeping
  simp only [Bool.or_eq_true, Bool.and_eq_true, decide_eq_true_eq] at h ⊢
  exact h.imp_right And.left

theorem stripItems_blankItems {table : KindTable} {vs : List Json}
    (h : ∀ v ∈ vs, strip table (blank kinds v) = strip table v) :
    stripItems table (blankItems kinds vs) = stripItems table vs := by
  induction vs with
  | nil => rfl
  | cons v rest ih =>
    rw [blankItems, stripItems, stripItems, h v (List.mem_cons_self ..),
      ih fun u hu => h u (List.mem_cons_of_mem _ hu)]

theorem stripFields_blankFields {table : KindTable} {inModule : Bool}
    (h : ∀ f ∈ fields, strip table (blank kinds f.2) = strip table f.2) :
    stripFields table (blankFields kinds inModule fields) = stripFields table fields := by
  induction fields with
  | nil => rfl
  | cons f rest ih =>
    obtain ⟨key, v⟩ := f
    have hrest := ih fun g hg => h g (List.mem_cons_of_mem _ hg)
    by_cases hkey : isBookkeeping key = true
    · rw [blankFields, stripFields_cons_of_bookkeeping hkey, stripFields_cons_of_bookkeeping hkey]
      exact hrest
    · -- what stripping keeps is read, and so is not replaced
      rw [blankFields, if_neg fun hread => hkey (isBookkeeping_of_isUnread hread), stripFields,
        stripFields, hrest, h (key, v) (List.mem_cons_self ..)]

/-- **Stripping takes away all that is blank:** a value and its blank form are the same when
stripped, and fail to be stripped for the same reason. -/
theorem strip_blank (table : KindTable) (v : Json) :
    strip table (blank kinds v) = strip table v := by
  induction v using Json.induct with
  | arr vs ih => rw [blank, strip, strip, stripItems_blankItems ih]
  | obj fields ih => rw [blank, strip, strip, stripFields_blankFields ih]
  | _ => rfl

/-! ## Names -/

/-- An identifier with a plain text has the same text when it is blank. -/
theorem identifierText_blank {v : Json} (h : v.EachObject HasPlainTexts) :
    identifierText (blank kinds v) = identifierText v := by
  cases v with
  | obj fields =>
    obtain ⟨htext, hescaped⟩ := (Json.eachObject_obj.mp h).1
    have hkeys : ∀ inModule, isUnread inModule "text" = false ∧
        isUnread inModule "escapedText" = false := by
      decide
    rw [blank, identifierText, identifierText,
      lookup_blankFields_of_isKey (hkeys _).1 htext,
      lookup_blankFields_of_isKey (hkeys _).2 hescaped]
  | _ => rfl

end Node

end DeclCatalogue
