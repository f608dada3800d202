import DeclCatalogue.Record.Basic

/-!
# What a check accepts

A check of a record goes through all of its fields, so that what it accepts is known only once the
outcomes of all fields are. The lemmas here take an accepted record apart: a joined outcome is valid
exactly if both of its parts are, and a single value exactly if it has the form that is asked for.

`Declaration.make_eq_valid` is the one that matters: a declaration is made of a context that is a
text and a name that is a text of at least one character, all of which stands for characters, and it
keeps what it is made of.
-/

namespace DeclCatalogue

namespace Checked

variable {α β : Type}

theorem map_eq_valid {f : α → β} {checked : Checked α} {b : β} :
    f <$> checked = .valid b ↔ ∃ a, checked = .valid a ∧ f a = b := by
  cases checked with
  | valid a =>
    constructor
    · intro h
      exact ⟨a, rfl, Checked.valid.inj h⟩
    · rintro ⟨a', ha, rfl⟩
      rw [ha]
      rfl
  | invalid issues =>
    constructor
    · intro h
      cases h
    · rintro ⟨a, ha, -⟩
      cases ha

theorem seq_eq_valid {f : Checked (α → β)} {checked : Checked α} {b : β} :
    f <*> checked = .valid b ↔ ∃ g a, f = .valid g ∧ checked = .valid a ∧ g a = b := by
  cases f with
  | valid g =>
    cases checked with
    | valid a =>
      constructor
      · intro h
        exact ⟨g, a, rfl, rfl, Checked.valid.inj h⟩
      · rintro ⟨g', a', hg, ha, rfl⟩
        rw [hg, ha]
        rfl
    | invalid issues => exact ⟨fun h => (by cases h), fun ⟨_, _, _, ha, _⟩ => (by cases ha)⟩
  | invalid issues =>
    refine ⟨fun h => ?_, fun ⟨_, _, hg, _, _⟩ => by cases hg⟩
    cases checked <;> cases h

theorem under_eq_valid {step : String} {checked : Checked α} {a : α} :
    checked.under step = .valid a ↔ checked = .valid a := by
  cases checked with
  | valid a => exact Iff.rfl
  | invalid issues => exact ⟨fun h => (by cases h), fun h => by cases h⟩

theorem text_eq_valid {v : Json} {s : String} : text v = .valid s ↔ v = .str s := by
  cases v with
  | str t =>
    constructor
    · intro h
      rw [Checked.valid.inj h]
    · intro h
      rw [Json.str.inj h]
      rfl
  | _ => exact ⟨fun h => (by cases h), fun h => by cases h⟩

theorem name_eq_valid {v : Json} {n : Name} : name v = .valid n ↔ v = .str n := by
  cases v with
  | str t =>
    rw [name]
    constructor
    · intro h
      split at h
      · split at h
        · cases h
        · rw [← Checked.valid.inj h]
      · cases h
    · intro h
      obtain rfl := Json.str.inj h
      rw [dif_pos n.property.2, dif_neg n.property.1]
  | _ => exact ⟨fun h => (by cases h), fun h => by cases h⟩

/-- Null is accepted as nothing, and any other value if it is a text. -/
theorem optional_text_eq_valid {v : Json} {s : Option String} :
    optional text v = .valid s ↔ v = Json.ofText? s := by
  cases v with
  | null =>
    cases s with
    | none => exact ⟨fun _ => rfl, fun _ => rfl⟩
    | some s => exact ⟨fun h => (by cases h), fun h => by cases h⟩
  | str t =>
    cases s with
    | none => exact ⟨fun h => (by cases h), fun h => by cases h⟩
    | some s =>
      constructor
      · intro h
        rw [← Option.some.inj (Checked.valid.inj h)]
        rfl
      · intro h
        rw [Json.str.inj h]
        rfl
  | _ =>
    refine ⟨fun h => (by cases h), fun h => ?_⟩
    cases s <;> cases h

end Checked

/-- **A declaration is made of exactly what it is given,** which has to be a text for the context
and a text of at least one character for the name. -/
theorem Declaration.make_eq_valid {context name : Json} {kind : DeclarationKind} {exported : Bool}
    {node : Fields} {record : Declaration} :
    Declaration.make context kind name exported node = .valid record ↔
      context = .str record.context ∧ name = .str record.name ∧ record.kind = kind ∧
        record.exported = exported ∧ record.node = node := by
  unfold Declaration.make
  simp only [Checked.seq_eq_valid, Checked.map_eq_valid, Checked.under_eq_valid,
    Checked.text_eq_valid, Checked.name_eq_valid]
  constructor
  · rintro ⟨_, n, ⟨c, rfl, rfl⟩, rfl, rfl⟩
    exact ⟨rfl, rfl, rfl, rfl, rfl⟩
  · rintro ⟨hcontext, hname, rfl, rfl, rfl⟩
    exact ⟨_, record.name, ⟨record.context, hcontext, rfl⟩, hname, rfl⟩

/-- **A variable is made of exactly what it is given:** names that are texts of at least one
character, and nothing or a text for the context of its type. -/
theorem VariableRecord.make_eq_valid {context : Option String} {name : Json}
    {value valueContext : Option Json} {record : VariableRecord} :
    VariableRecord.make context name value valueContext = .valid record ↔
      record.context = context ∧ name = .str record.name ∧ value = some (.str record.value) ∧
        valueContext.getD .null = Json.ofText? record.valueContext := by
  -- a missing name of the type is an empty one, and that is no name
  have hvalue : value.getD (.str "") = .str record.value ↔ value = some (.str record.value) := by
    cases value with
    | none =>
      refine ⟨fun h => ?_, fun h => by cases h⟩
      exact absurd (Json.str.inj h).symm record.value.property.1
    | some v => exact ⟨congrArg some, Option.some.inj⟩
  unfold VariableRecord.make
  simp only [Checked.seq_eq_valid, Checked.map_eq_valid, Checked.under_eq_valid,
    Checked.name_eq_valid, Checked.optional_text_eq_valid, ← hvalue]
  constructor
  · rintro ⟨_, c, ⟨_, v, ⟨n, rfl, rfl⟩, hv, rfl⟩, hc, rfl⟩
    exact ⟨rfl, rfl, hv, hc⟩
  · rintro ⟨rfl, rfl, hv, hc⟩
    exact ⟨_, record.valueContext, ⟨_, record.value, ⟨record.name, rfl, rfl⟩, hv, rfl⟩, hc, rfl⟩

end DeclCatalogue
