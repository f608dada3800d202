import DeclCatalogue.Proofs.Record.Make
import DeclCatalogue.Proofs.Walk.Alike

/-!
# Records are read as they are written

Every record that is written as a JSON object is read back as it was: kinds by their texts, names
without loss, and what is absent as null. A declaration that is written without its node is read with
an empty one. Lists are read item by item (`itemsFrom_map`), and so a bucket is read back with all of
its lists (`Bucket.ofJson_toJson`).
-/

namespace DeclCatalogue

namespace Checked

variable {α β : Type}

/-- A name is read as it is written. -/
@[simp] theorem name_str (n : Name) : name (.str n) = .valid n := name_eq_valid.mpr rfl

@[simp] theorem text_str (s : String) : text (.str s) = .valid s := rfl

@[simp] theorem flag_bool (b : Bool) : flag (.bool b) = .valid b := rfl

@[simp] theorem object_obj (fields : Fields) : object (.obj fields) = .valid fields := rfl

@[simp] theorem under_valid (step : String) (a : α) : (Checked.valid a).under step = .valid a := rfl

/-- A text that may be absent is read as it is written. -/
@[simp] theorem optional_text_ofText? (s : Option String) :
    optional text (Json.ofText? s) = .valid s :=
  optional_text_eq_valid.mpr rfl

/-- A list that is written item by item is read item by item. -/
theorem itemsFrom_map {check : Json → Checked β} {write : α → Json} {f : α → β}
    (h : ∀ a, check (write a) = .valid (f a)) (position : Nat) (as : List α) :
    itemsFrom check position (as.map write) = .valid (as.map f) := by
  induction as generalizing position with
  | nil => rfl
  | cons a rest ih =>
    rw [List.map_cons, itemsFrom, h a, ih (position + 1)]
    rfl

theorem items_map {check : Json → Checked β} {write : α → Json} {f : α → β}
    (h : ∀ a, check (write a) = .valid (f a)) (as : List α) :
    items check (.arr (as.map write)) = .valid (as.map f) :=
  itemsFrom_map h 0 as

end Checked

open Checked

@[simp] theorem DeclarationKind.member_text (k : DeclarationKind) :
    member DeclarationKind.ofText? (.str k.text) = .valid k := by
  have hformed : Text.isWellFormed k.text = true := by cases k <;> decide +kernel
  rw [member, if_pos hformed, DeclarationKind.ofText?_text]

@[simp] theorem ImportKind.member_text (k : ImportKind) :
    member ImportKind.ofText? (.str k.text) = .valid k := by
  have hformed : Text.isWellFormed k.text = true := by cases k <;> decide +kernel
  rw [member, if_pos hformed, ImportKind.ofText?_text]

/-- A declaration that is written with its node is read back. -/
theorem Declaration.ofJson_toJson (d : Declaration) : ofJson (d.toJson true) = .valid d := by
  simp [ofJson, toJson, toFields, record, ofFields, required, withDefault, Json.find?]

/-- A declaration that is written without its node is read with an empty one. -/
theorem Declaration.ofJson_bare (d : Declaration) : ofJson (d.toJson false) = .valid d.bare := by
  simp [ofJson, toJson, toFields, record, ofFields, required, withDefault, Json.find?, bare]

theorem VariableRecord.ofJson_toJson (v : VariableRecord) : ofJson v.toJson = .valid v := by
  simp [ofJson, toJson, record, ofFields, required, withDefault, Json.find?]

theorem ExportRecord.ofJson_toJson (e : ExportRecord) : ofJson e.toJson = .valid e := by
  simp [ofJson, toJson, record, ofFields, required, Json.find?]

/-- An import is read back from either of the names for its module. -/
theorem ImportRecord.ofJson_toJson (i : ImportRecord) {key : String}
    (hkey : key = "from" ∨ key = "source") : ofJson (i.toJson key) = .valid i := by
  rcases hkey with rfl | rfl <;>
    simp [ofJson, toJson, record, ofFields, sourceKey, Json.hasField, required, Json.find?]

namespace Bucket

/-- A bucket whose declarations have no nodes. -/
def bare (b : Bucket) : Bucket :=
  { b with
    functions := b.functions.map Declaration.bare
    interfaces := b.interfaces.map Declaration.bare
    types := b.types.map Declaration.bare
    classes := b.classes.map Declaration.bare }

/-- A bucket is read with what its declarations are read as. -/
theorem ofJson_toJson_of {withNodes : Bool} {f : Declaration → Declaration}
    (h : ∀ d : Declaration, Declaration.ofJson (d.toJson withNodes) = .valid (f d)) (b : Bucket) :
    ofJson (b.toJson withNodes) =
      .valid { b with
        functions := b.functions.map f
        interfaces := b.interfaces.map f
        types := b.types.map f
        classes := b.classes.map f } := by
  have hvariables := items_map VariableRecord.ofJson_toJson b.variableRecords
  have hexports := items_map ExportRecord.ofJson_toJson b.exports
  simp [ofJson, toJson, record, ofFields, withDefault, Json.find?, items_map h, hvariables,
    hexports]

/-- **A bucket that is written is read back.** -/
theorem ofJson_toJson (b : Bucket) : ofJson (b.toJson true) = .valid b := by
  rw [ofJson_toJson_of (f := id) Declaration.ofJson_toJson]
  simp only [List.map_id_fun, id_eq]

/-- Without nodes a bucket is read with empty ones. -/
theorem ofJson_bare (b : Bucket) : ofJson (b.toJson false) = .valid b.bare :=
  ofJson_toJson_of Declaration.ofJson_bare b

end Bucket

end DeclCatalogue
