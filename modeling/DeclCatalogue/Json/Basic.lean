import DeclCatalogue.Number.Binary64

/-!
# JSON values

Syntax nodes, kind tables, settings files and catalogue documents are all JSON values. Integers
have any size and are kept apart from floating-point numbers; the fields of an object keep their
order.

* `Json.fields?` and `Json.lookup` read an object, `Json.setField` replaces or appends a field;
* `Json.truthy` tells the values that count as present from those that count as absent;
* `Json.induct` is induction over values with the items of a list and the fields of an object as
  members.
-/

namespace DeclCatalogue

/-- A JSON value. -/
inductive Json where
  | null
  | bool (value : Bool)
  | int (value : Int)
  | real (value : Binary64)
  | str (text : String)
  | arr (items : List Json)
  | obj (fields : List (String × Json))
  deriving Repr, Inhabited

/-- The fields of an object, in order. -/
abbrev Fields := List (String × Json)

namespace Json

/-! ## Equality -/

mutual
/-- Decides whether two values are the same. -/
def decEq : (a b : Json) → Decidable (a = b)
  | .null, .null => isTrue rfl
  | .bool a, .bool b => if h : a = b then isTrue (h ▸ rfl) else isFalse (by simpa using h)
  | .int a, .int b => if h : a = b then isTrue (h ▸ rfl) else isFalse (by simpa using h)
  | .real a, .real b => if h : a = b then isTrue (h ▸ rfl) else isFalse (by simpa using h)
  | .str a, .str b => if h : a = b then isTrue (h ▸ rfl) else isFalse (by simpa using h)
  | .arr a, .arr b =>
    match decEqItems a b with
    | isTrue h => isTrue (h ▸ rfl)
    | isFalse h => isFalse (by simpa using h)
  | .obj a, .obj b =>
    match decEqFields a b with
    | isTrue h => isTrue (h ▸ rfl)
    | isFalse h => isFalse (by simpa using h)
  | .null, .bool _ | .null, .int _ | .null, .real _ | .null, .str _ | .null, .arr _
  | .null, .obj _ | .bool _, .null | .bool _, .int _ | .bool _, .real _ | .bool _, .str _
  | .bool _, .arr _ | .bool _, .obj _ | .int _, .null | .int _, .bool _ | .int _, .real _
  | .int _, .str _ | .int _, .arr _ | .int _, .obj _ | .real _, .null | .real _, .bool _
  | .real _, .int _ | .real _, .str _ | .real _, .arr _ | .real _, .obj _ | .str _, .null
  | .str _, .bool _ | .str _, .int _ | .str _, .real _ | .str _, .arr _ | .str _, .obj _
  | .arr _, .null | .arr _, .bool _ | .arr _, .int _ | .arr _, .real _ | .arr _, .str _
  | .arr _, .obj _ | .obj _, .null | .obj _, .bool _ | .obj _, .int _ | .obj _, .real _
  | .obj _, .str _ | .obj _, .arr _ => isFalse (by simp)

/-- Decides whether two lists of values are the same. -/
def decEqItems : (a b : List Json) → Decidable (a = b)
  | [], [] => isTrue rfl
  | [], _ :: _ | _ :: _, [] => isFalse (by simp)
  | a :: as, b :: bs =>
    match decEq a b, decEqItems as bs with
    | isTrue h, isTrue k => isTrue (h ▸ k ▸ rfl)
    | isFalse h, _ => isFalse (by simp [h])
    | _, isFalse k => isFalse (by simp [k])

/-- Decides whether two lists of fields are the same. -/
def decEqFields : (a b : Fields) → Decidable (a = b)
  | [], [] => isTrue rfl
  | [], _ :: _ | _ :: _, [] => isFalse (by simp)
  | (k, a) :: as, (l, b) :: bs =>
    if hk : k = l then
      match decEq a b, decEqFields as bs with
      | isTrue h, isTrue t => isTrue (hk ▸ h ▸ t ▸ rfl)
      | isFalse h, _ => isFalse (by simp [h])
      | _, isFalse t => isFalse (by simp [t])
    else isFalse (by simp [hk])
end

instance : DecidableEq Json := decEq

/-! ## Induction -/

/-- Induction over values: a list may assume the property of its items, an object that of the
values of its fields. -/
theorem induct {motive : Json → Prop}
    (null : motive .null) (bool : ∀ b, motive (.bool b)) (int : ∀ n, motive (.int n))
    (real : ∀ x, motive (.real x)) (str : ∀ s, motive (.str s))
    (arr : ∀ items, (∀ v ∈ items, motive v) → motive (.arr items))
    (obj : ∀ fields : Fields, (∀ f ∈ fields, motive f.2) → motive (.obj fields)) :
    ∀ v, motive v :=
  @Json.rec motive (fun items => ∀ v ∈ items, motive v)
    (fun fields => ∀ f ∈ fields, motive f.2) (fun f => motive f.2)
    null bool int real str arr obj
    (by simp)
    (fun v items hv hs w hw => by
      rcases List.mem_cons.1 hw with rfl | h
      · exact hv
      · exact hs w h)
    (by simp)
    (fun f fields hf hs g hg => by
      rcases List.mem_cons.1 hg with rfl | h
      · exact hf
      · exact hs g h)
    (fun _ _ h => h)

/-! ## Objects -/

/-- The fields of an object; none for any other value. -/
def fields? : Json → Option Fields
  | .obj fields => some fields
  | _ => none

/-- The value of the first field with a name; null if there is none. -/
def lookup (key : String) : Fields → Json
  | [] => .null
  | (k, v) :: rest => if k = key then v else lookup key rest

/-- The value of the first field with a name, told apart from a missing field. -/
def find? (key : String) : Fields → Option Json
  | [] => none
  | (k, v) :: rest => if k = key then some v else find? key rest

/-- The value of a field of an object; null if there is none, and for any other value. -/
def field (v : Json) (key : String) : Json :=
  match v with
  | .obj fields => lookup key fields
  | _ => .null

/-- Replaces the value of the first field with a name, or appends a field. -/
def setField (key : String) (value : Json) : Fields → Fields
  | [] => [(key, value)]
  | (k, v) :: rest =>
    if k = key then (k, value) :: rest else (k, v) :: setField key value rest

/-- Whether one of the fields has the name. -/
def hasField (key : String) (fields : Fields) : Bool :=
  fields.any fun f => f.1 = key

/-- Fields with each name once: a later value of a name stands in the place of the first. -/
def ofPairs (pairs : List (String × Json)) : Fields :=
  pairs.foldl (fun (fields : Fields) pair => setField pair.1 pair.2 fields) []

/-- Fields with each name once: the first value of a name counts. -/
def firstOfEach : Fields → Fields
  | [] => []
  | f :: rest => f :: (firstOfEach rest).filter fun g => g.1 ≠ f.1

@[simp] theorem lookup_nil (key : String) : lookup key [] = .null := rfl

theorem lookup_cons (key : String) (f : String × Json) (rest : Fields) :
    lookup key (f :: rest) = if f.1 = key then f.2 else lookup key rest := rfl

theorem lookup_eq_getD_find? (key : String) (fields : Fields) :
    lookup key fields = (find? key fields).getD .null := by
  induction fields with
  | nil => rfl
  | cons f rest ih =>
    rw [lookup, find?]
    split <;> simp_all

@[simp] theorem lookup_setField_self (key : String) (value : Json) (fields : Fields) :
    lookup key (setField key value fields) = value := by
  induction fields with
  | nil => simp [setField, lookup_cons]
  | cons f rest ih =>
    rw [setField]
    split <;> simp_all [lookup_cons]

theorem lookup_setField_of_ne {key other : String} (h : other ≠ key) (value : Json)
    (fields : Fields) : lookup other (setField key value fields) = lookup other fields := by
  induction fields with
  | nil => simp [setField, lookup_cons, Ne.symm h]
  | cons f rest ih =>
    rw [setField]
    split <;> rename_i hk
    · have : f.1 ≠ other := fun e => h (e.symm.trans hk)
      simp [lookup_cons, this]
    · simp [lookup_cons, ih]

/-- A field that is looked up is null or one of the fields. -/
theorem lookup_eq_null_or_mem (key : String) (fields : Fields) :
    lookup key fields = .null ∨ (key, lookup key fields) ∈ fields := by
  induction fields with
  | nil => exact .inl rfl
  | cons f rest ih =>
    rw [lookup_cons]
    split
    · rename_i hk; subst hk; exact .inr (List.mem_cons_self ..)
    · exact ih.imp_right (List.mem_cons_of_mem _)

/-! ## Presence -/

/-- Null, false, zero and everything empty count as absent. -/
def truthy : Json → Bool
  | .null => false
  | .bool b => b
  | .int n => n ≠ 0
  | .real x => !x.isZero
  | .str s => s ≠ ""
  | .arr items => !items.isEmpty
  | .obj fields => !fields.isEmpty

/-- The value if it counts as present. -/
def present? (v : Json) : Option Json :=
  if v.truthy then some v else none

/-- Whether a value can be a key: a list or an object cannot. -/
def isKey : Json → Bool
  | .arr _ | .obj _ => false
  | _ => true

/-- Null for an absent optional text. -/
def ofText? : Option String → Json
  | none => .null
  | some s => .str s

end Json

end DeclCatalogue
