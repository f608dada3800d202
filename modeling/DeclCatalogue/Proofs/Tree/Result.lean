import DeclCatalogue.Tree.SourceFile
import Mathlib.Data.List.Forall2

/-!
# The results of building

Building a syntax tree stops at the first text that cannot be decoded. `Yields x R` says of a
result that, if it is one, it satisfies `R`; the rules below carry it through the ways in which
results are put together. What is built with a log is taken without it: `Built.result_bind` and its
companions turn the result of building in steps into a plain result.
-/

namespace DeclCatalogue.Tree

variable {α β : Type}

/-! ## Plain results -/

theorem bind_eq_ok {x : Decoded α} {f : α → Decoded β} {b : β} :
    (x >>= f) = .ok b ↔ ∃ a, x = .ok a ∧ f a = .ok b := by
  cases x with
  | error fault =>
    constructor
    · intro h
      cases h
    · rintro ⟨a, h, -⟩
      cases h
  | ok a =>
    constructor
    · intro h
      exact ⟨a, rfl, h⟩
    · rintro ⟨a', h, k⟩
      rw [Except.ok.inj h]
      exact k

theorem map_eq_ok {x : Decoded α} {f : α → β} {b : β} :
    x.map f = .ok b ↔ ∃ a, x = .ok a ∧ f a = b := by
  cases x with
  | error fault =>
    constructor
    · intro h
      cases h
    · rintro ⟨a, h, -⟩
      cases h
  | ok a =>
    constructor
    · intro h
      exact ⟨a, rfl, Except.ok.inj h⟩
    · rintro ⟨a', h, rfl⟩
      rw [Except.ok.inj h]
      rfl

/-! ## What results satisfy -/

/-- A result, if it is one, satisfies `R`. -/
def Yields (x : Decoded α) (R : α → Prop) : Prop :=
  ∀ a, x = .ok a → R a

variable {R S : α → Prop} {Q : β → Prop}

theorem Yields.mono {x : Decoded α} (h : Yields x R) (hRS : ∀ a, R a → S a) : Yields x S :=
  fun a ha => hRS a (h a ha)

theorem yields_ok {a : α} (h : R a) : Yields (.ok a) R := by
  intro b hb
  rw [← Except.ok.inj hb]
  exact h

theorem yields_pure {a : α} (h : R a) : Yields (pure a) R :=
  yields_ok h

theorem Yields.bind {x : Decoded α} {f : α → Decoded β} (h : Yields x R)
    (hnext : ∀ a, R a → Yields (f a) Q) : Yields (x >>= f) Q := by
  intro b hb
  obtain ⟨a, ha, hf⟩ := bind_eq_ok.mp hb
  exact hnext a (h a ha) b hf

theorem Yields.map {x : Decoded α} {f : α → β} (h : Yields x R) (hf : ∀ a, R a → Q (f a)) :
    Yields (x.map f) Q := by
  intro b hb
  obtain ⟨a, ha, rfl⟩ := map_eq_ok.mp hb
  exact hf a (h a ha)

theorem yields_any (x : Decoded α) : Yields x fun _ => True :=
  fun _ _ => trivial

/-- What the items of a list yield, the list yields of all of its results. -/
theorem yields_decodeEach {step : α → Decoded β} {xs : List α}
    (h : ∀ x ∈ xs, Yields (step x) Q) : Yields (decodeEach step xs) fun ys => ∀ y ∈ ys, Q y := by
  induction xs with
  | nil => exact yields_ok fun y hy => by cases hy
  | cons x rest ih =>
    refine (h x (List.mem_cons_self ..)).bind fun y hy => ?_
    refine (ih fun z hz => h z (List.mem_cons_of_mem _ hz)).bind fun ys hys => ?_
    refine yields_pure fun z hz => ?_
    rcases List.mem_cons.mp hz with rfl | hz
    · exact hy
    · exact hys z hz

/-- What each item of a list yields, the list yields item by item. -/
theorem yields_decodeEach_forall₂ {step : α → Decoded β} {R : α → β → Prop} {xs : List α}
    (h : ∀ x ∈ xs, Yields (step x) (R x)) : Yields (decodeEach step xs) (List.Forall₂ R xs) := by
  induction xs with
  | nil => exact yields_ok .nil
  | cons x rest ih =>
    refine (h x (List.mem_cons_self ..)).bind fun y hy => ?_
    refine (ih fun z hz => h z (List.mem_cons_of_mem _ hz)).bind fun ys hys => ?_
    exact yields_pure (.cons hy hys)

/-! ## Results with a log -/

namespace Built

@[simp] theorem result_pure (a : α) : (pure a : Built α).result = .ok a := rfl

@[simp] theorem result_lift (x : Decoded α) : (liftM x : Built α).result = x := rfl

@[simp] theorem result_bind (first : Built α) (next : α → Built β) :
    (first >>= next).result = first.result >>= fun a => (next a).result := by
  obtain ⟨log, result⟩ := first
  cases result with
  | error fault => rfl
  | ok a => rfl

@[simp] theorem result_forEach (step : α → Built β) (xs : List α) :
    (forEach step xs).result = decodeEach (fun x => (step x).result) xs := by
  induction xs with
  | nil => rfl
  | cons x rest ih =>
    rw [forEach, decodeEach, result_bind]
    congr 1
    funext y
    rw [result_bind, ih]
    rfl

end Built

end DeclCatalogue.Tree
