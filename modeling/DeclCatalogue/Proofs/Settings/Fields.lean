import DeclCatalogue.Proofs.Json.Keys
import DeclCatalogue.Proofs.Record.Make
import DeclCatalogue.Settings.Layers

/-!
# One setting at a time

There are seven settings, and none of them has a part in what becomes of another. `Field.outcome`
says what becomes of one: its default where nothing is given for it, and what its own check makes of
the value where one is given. `known_eq_assemble` says that the settings read from an object are put
together from these outcomes, and `ofFields_eq` that nothing else of the object matters if all that
it has are settings.
-/

namespace DeclCatalogue.Settings

open Json (find?)

namespace Field

/-- The settings are what settings can be named. -/
theorem mem_keys_iff {name : String} : name ∈ Settings.keys ↔ ∃ f : Field, f.key = name := by
  constructor
  · intro h
    simp only [Settings.keys, List.mem_cons, List.not_mem_nil, or_false] at h
    obtain rfl | rfl | rfl | rfl | rfl | rfl | rfl := h
    exacts [⟨.rootContext, rfl⟩, ⟨.namespacePrefix, rfl⟩, ⟨.placeholderPrefix, rfl⟩,
      ⟨.namespaceFlags, rfl⟩, ⟨.kindTablePath, rfl⟩, ⟨.tsx, rfl⟩, ⟨.strict, rfl⟩]
  · rintro ⟨f, rfl⟩
    cases f <;> decide

theorem key_mem (f : Field) : f.key ∈ Settings.keys :=
  mem_keys_iff.mpr ⟨f, rfl⟩

end Field

variable {fields others : Fields}

/-! ## The settings of an object -/

theorem assemble_eq_valid {read : (f : Field) → Checked f.Value} {s : Settings} :
    assemble read = .valid s ↔ ∀ f, read f = .valid (f.get s) := by
  unfold assemble
  simp only [Checked.seq_eq_valid, Checked.map_eq_valid]
  constructor
  · rintro ⟨_, _, ⟨_, _, ⟨_, _, ⟨_, _, ⟨_, _, ⟨_, _, ⟨_, h₁, rfl⟩, h₂, rfl⟩, h₃, rfl⟩, h₄, rfl⟩,
      h₅, rfl⟩, h₆, rfl⟩, h₇, rfl⟩ f
    cases f
    exacts [h₁, h₂, h₃, h₄, h₅, h₆, h₇]
  · intro h
    exact ⟨_, _, ⟨_, _, ⟨_, _, ⟨_, _, ⟨_, _, ⟨_, _, ⟨_, h .rootContext, rfl⟩,
      h .namespacePrefix, rfl⟩, h .placeholderPrefix, rfl⟩, h .namespaceFlags, rfl⟩,
      h .kindTablePath, rfl⟩, h .tsx, rfl⟩, h .strict, rfl⟩

/-- What is read for a setting is its outcome, with its name before the issues. -/
theorem withDefault_eq (f : Field) (fields : Fields) :
    Checked.withDefault fields f.key (f.get standard) f.check =
      (f.outcome (find? f.key fields)).under f.key := by
  unfold Checked.withDefault Field.outcome
  cases find? f.key fields <;> rfl

/-- The settings of an object are read one by one. -/
theorem known_eq_assemble (fields : Fields) :
    known fields = assemble fun f => (f.outcome (find? f.key fields)).under f.key :=
  congrArg assemble (funext fun f => withDefault_eq f fields)

/-- What an object has besides settings does not matter as long as there is nothing. -/
theorem ofFields_eq (h : ∀ name ∈ Json.keys fields, name ∈ Settings.keys) :
    ofFields fields = known fields := by
  have hknown : ∀ f ∈ fields, f.1 ∈ Settings.keys :=
    fun f hf => h f.1 (List.mem_map_of_mem hf)
  have hformed : (fields.all fun f => Text.isWellFormed f.1) = true := by
    refine List.all_eq_true.mpr fun f hf => ?_
    have hall : ∀ name ∈ Settings.keys, Text.isWellFormed name = true := by decide +kernel
    exact hall f.1 (hknown f hf)
  have hissues : unknownIssues fields = [] := by
    unfold unknownIssues
    rw [List.map_eq_nil_iff, List.filter_eq_nil_iff]
    intro f hf
    rw [List.contains_iff_mem.mpr (hknown f hf)]
    decide
  unfold ofFields onlyKnown
  rw [if_pos hformed, hissues]
  cases known fields <;> rfl

end DeclCatalogue.Settings
