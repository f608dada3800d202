import DeclCatalogue.Json.Basic

/-!
# The objects in a value

Most of what is asked of a syntax tree is asked of every object in it, at any depth: that no object
keeps the bookkeeping of a parser, that every kind has a name, that every text is one.
`Json.objects` lists the objects in a value, and `Json.EachObject` says that all of them have a
property; `eachObject_arr` and `eachObject_obj` are the two ways into a value.

`Json.lookup` only sees the first field with a name, and so does everything that reads a tree.
Properties of a single field are therefore stated of what is looked up.
-/

namespace DeclCatalogue.Json

mutual
/-- The fields of every object in a value; an object stands before the objects in it. -/
def objects : Json → List Fields
  | .arr vs => objectsAmong vs
  | .obj fields => fields :: objectsIn fields
  | _ => []

/-- The objects in a list of values. -/
def objectsAmong : List Json → List Fields
  | [] => []
  | v :: rest => objects v ++ objectsAmong rest

/-- The objects in the values of fields. -/
def objectsIn : Fields → List Fields
  | [] => []
  | (_, v) :: rest => objects v ++ objectsIn rest
end

mutual
/-- The objects in a value that lie in no other object of it. -/
def outermost : Json → List Fields
  | .arr vs => outermostAmong vs
  | .obj fields => [fields]
  | _ => []

/-- The outermost objects in a list of values. -/
def outermostAmong : List Json → List Fields
  | [] => []
  | v :: rest => outermost v ++ outermostAmong rest
end

/-- Every object in a value has the property. -/
def EachObject (P : Fields → Prop) (v : Json) : Prop :=
  ∀ o ∈ v.objects, P o

instance {P : Fields → Prop} [DecidablePred P] (v : Json) : Decidable (EachObject P v) :=
  inferInstanceAs (Decidable (∀ o ∈ v.objects, P o))

theorem mem_objectsAmong {o : Fields} {vs : List Json} :
    o ∈ objectsAmong vs ↔ ∃ v ∈ vs, o ∈ v.objects := by
  induction vs with
  | nil => simp [objectsAmong]
  | cons v rest ih => simp [objectsAmong, ih]

theorem mem_outermostAmong {o : Fields} {vs : List Json} :
    o ∈ outermostAmong vs ↔ ∃ v ∈ vs, o ∈ v.outermost := by
  induction vs with
  | nil => simp [outermostAmong]
  | cons v rest ih => simp [outermostAmong, ih]

theorem mem_objectsIn {o fields : Fields} :
    o ∈ objectsIn fields ↔ ∃ f ∈ fields, o ∈ f.2.objects := by
  induction fields with
  | nil => simp [objectsIn]
  | cons f rest ih => simp [objectsIn, ih]

variable {P Q : Fields → Prop}

theorem eachObject_arr {vs : List Json} : EachObject P (.arr vs) ↔ ∀ v ∈ vs, EachObject P v := by
  simp only [EachObject, objects, mem_objectsAmong]
  exact ⟨fun h v hv o ho => h o ⟨v, hv, ho⟩, fun h o ⟨v, hv, ho⟩ => h v hv o ho⟩

theorem eachObject_obj {fields : Fields} :
    EachObject P (.obj fields) ↔ P fields ∧ ∀ f ∈ fields, EachObject P f.2 := by
  simp only [EachObject, objects, List.mem_cons, mem_objectsIn]
  constructor
  · intro h
    exact ⟨h fields (.inl rfl), fun f hf o ho => h o (.inr ⟨f, hf, ho⟩)⟩
  · rintro ⟨hself, hfields⟩ o (rfl | ⟨f, hf, ho⟩)
    · exact hself
    · exact hfields f hf o ho

@[simp] theorem eachObject_null : EachObject P .null := by simp [EachObject, objects]

@[simp] theorem eachObject_bool (b : Bool) : EachObject P (.bool b) := by simp [EachObject, objects]

@[simp] theorem eachObject_int (n : Int) : EachObject P (.int n) := by simp [EachObject, objects]

@[simp] theorem eachObject_real (x : Binary64) : EachObject P (.real x) := by
  simp [EachObject, objects]

@[simp] theorem eachObject_str (s : String) : EachObject P (.str s) := by simp [EachObject, objects]

theorem EachObject.mono (h : ∀ o, P o → Q o) {v : Json} (hv : EachObject P v) : EachObject Q v :=
  fun o ho => h o (hv o ho)

/-- A property of all objects goes down to the value of a field. -/
theorem EachObject.lookup {fields : Fields} (h : EachObject P (.obj fields)) (key : String) :
    EachObject P (lookup key fields) := by
  rcases lookup_eq_null_or_mem key fields with hnull | hmem
  · rw [hnull]; exact eachObject_null
  · exact (eachObject_obj.mp h).2 _ hmem

/-! ## Induction -/

/-- Induction over values that are looked into by field names: an object may assume the property of
whatever is looked up in it, a missing field included. -/
theorem induct_lookup {motive : Json → Prop}
    (null : motive .null) (bool : ∀ b, motive (.bool b)) (int : ∀ n, motive (.int n))
    (real : ∀ x, motive (.real x)) (str : ∀ s, motive (.str s))
    (arr : ∀ items, (∀ v ∈ items, motive v) → motive (.arr items))
    (obj : ∀ fields, (∀ key, motive (Json.lookup key fields)) → motive (.obj fields)) (v : Json) :
    motive v := by
  induction v using induct with
  | obj fields ih =>
    refine obj fields fun key => ?_
    rcases lookup_eq_null_or_mem key fields with hnull | hmem
    · rw [hnull]
      exact null
    · exact ih _ hmem
  | arr items ih => exact arr items ih
  | null => exact null
  | bool b => exact bool b
  | int n => exact int n
  | real x => exact real x
  | str s => exact str s

/-! ## Values that count as present -/

/-- An object with a field that is not null counts as present. -/
theorem truthy_of_lookup (key : String) {fields : Fields} (h : Json.lookup key fields ≠ .null) :
    (Json.obj fields).truthy = true := by
  cases fields with
  | nil => exact absurd rfl h
  | cons f rest => rfl

/-- Only an object has a field that counts as present. -/
theorem exists_fields_of_field {v : Json} {key : String} (h : (v.field key).truthy = true) :
    ∃ fields, v = .obj fields := by
  cases v with
  | obj fields => exact ⟨fields, rfl⟩
  | _ => cases h

/-- An object with a field that counts as present does so itself. -/
theorem truthy_of_field {v : Json} {key : String} (h : (v.field key).truthy = true) :
    v.truthy = true := by
  obtain ⟨fields, rfl⟩ := exists_fields_of_field h
  refine truthy_of_lookup key fun hnull => ?_
  have hfield : (Json.obj fields).field key = .null := hnull
  rw [hfield] at h
  cases h

/-! ## Values that may be missing -/

/-- A value that is missing or an object. -/
def MaybeObject (v : Json) : Prop :=
  v = .null ∨ ∃ fields, v = .obj fields

instance : DecidablePred MaybeObject
  | .null => isTrue (.inl rfl)
  | .obj fields => isTrue (.inr ⟨fields, rfl⟩)
  | .bool _ | .int _ | .real _ | .str _ | .arr _ =>
    isFalse fun h => by obtain h | ⟨_, h⟩ := h <;> cases h

/-- A value that is missing or a list, which holds these objects. -/
def MaybeObjects (v : Json) (objects : List Fields) : Prop :=
  (v = .null ∧ objects = []) ∨ v = .arr (objects.map .obj)

/-- A property of all objects in a list goes down to its objects. -/
theorem MaybeObjects.eachObject {v : Json} {objects : List Fields} (hv : v.MaybeObjects objects)
    (h : v.EachObject P) : ∀ o ∈ objects, (Json.obj o).EachObject P := by
  intro o ho
  rcases hv with ⟨-, rfl⟩ | rfl
  · cases ho
  · exact eachObject_arr.mp h _ (List.mem_map_of_mem ho)

/-- A value that is missing or a text. -/
def MaybeText (v : Json) : Prop :=
  ∃ s, v = ofText? s

instance : DecidablePred MaybeText
  | .null => isTrue ⟨none, rfl⟩
  | .str s => isTrue ⟨some s, rfl⟩
  | .bool _ | .int _ | .real _ | .arr _ | .obj _ =>
    isFalse fun h => by obtain ⟨_ | _, h⟩ := h <;> cases h

/-! ## Replacing a field -/

/-- A field of an object in which one is replaced is the new one or was there before. -/
theorem mem_setField {key : String} {value : Json} {fields : Fields} {f : String × Json}
    (h : f ∈ setField key value fields) : f = (key, value) ∨ f ∈ fields := by
  induction fields with
  | nil => exact .inl (by simpa [setField] using h)
  | cons g rest ih =>
    rw [setField] at h
    split at h
    next hk =>
      rcases List.mem_cons.mp h with rfl | hrest
      · exact .inl (by rw [hk])
      · exact .inr (List.mem_cons_of_mem _ hrest)
    next =>
      rcases List.mem_cons.mp h with rfl | hrest
      · exact .inr (List.mem_cons_self ..)
      · exact (ih hrest).imp_right (List.mem_cons_of_mem _)

/-- Replacing the value of a field by itself changes nothing. -/
theorem setField_self {key : String} {value : Json} {fields : Fields}
    (h : find? key fields = some value) : setField key value fields = fields := by
  induction fields with
  | nil => cases h
  | cons g rest ih =>
    obtain ⟨k, v⟩ := g
    rw [find?] at h
    rw [setField]
    split at h
    next hk => rw [if_pos hk, Option.some.inj h]
    next hk => rw [if_neg hk, ih h]

/-- Replacing the value of a field keeps a property of all objects, if the object itself still has
it and the new value has it throughout. -/
theorem eachObject_setField {key : String} {value : Json} {fields : Fields}
    (hself : P (setField key value fields)) (hvalue : EachObject P value)
    (h : EachObject P (.obj fields)) : EachObject P (.obj (setField key value fields)) := by
  refine eachObject_obj.mpr ⟨hself, fun f hf => ?_⟩
  rcases mem_setField hf with rfl | hold
  · exact hvalue
  · exact (eachObject_obj.mp h).2 f hold

end DeclCatalogue.Json
