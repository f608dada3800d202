import DeclCatalogue.Fault

/-!
# Where a fault comes from

A result that is put together from other results is a fault exactly if the first of them that is one
is this fault. `Fault.of?` takes the fault out of a result, for results that are computed.
-/

namespace DeclCatalogue.Fault

variable {α β : Type} {fault : Fault}

theorem bind_eq_error {result : Except Fault α} {next : α → Except Fault β} :
    (result >>= next) = .error fault ↔
      result = .error fault ∨ ∃ a, result = .ok a ∧ next a = .error fault := by
  cases result with
  | error other => simp [Bind.bind, Except.bind]
  | ok a =>
    refine ⟨fun h => .inr ⟨a, rfl, h⟩, fun h => ?_⟩
    rcases h with h | ⟨b, hb, h⟩
    · cases h
    · rw [Except.ok.inj hb]
      exact h

theorem map_eq_error {result : Except Fault α} {f : α → β} :
    result.map f = .error fault ↔ result = .error fault := by
  cases result with
  | error other => simp [Except.map]
  | ok a => exact ⟨fun h => (by cases h), fun h => by cases h⟩

/-- The fault that a result is. -/
def of? : Except Fault α → Option Fault
  | .error fault => some fault
  | .ok _ => none

theorem eq_error_of_of? {result : Except Fault α} (h : of? result = some fault) :
    result = .error fault := by
  cases result with
  | error other => exact congrArg _ (Option.some.inj h)
  | ok a => cases h

end DeclCatalogue.Fault
