import DeclCatalogue.Json.Same
import DeclCatalogue.Proofs.Number.Integer

/-!
# Keys that are equal by value

On keys, `Json.same` is an equivalence: `same_iff_canonical` reads it as plain equality of canonical
keys, in which every number that is an integer is written as one. Texts are equal to themselves only
(`same_str`), so that nothing of this shows where all keys are texts.
-/

namespace DeclCatalogue.Json

/-- A value with the integer that it is equal to in its place, if there is one. -/
def canonical (v : Json) : Json :=
  match v.integer? with
  | some n => .int n
  | none => v

theorem canonical_eq_int {v : Json} {n : Int} (h : v.integer? = some n) : v.canonical = .int n := by
  unfold canonical
  rw [h]

theorem canonical_eq_self {v : Json} (h : v.integer? = none) : v.canonical = v := by
  unfold canonical
  rw [h]

/-- Numbers are the same number if they are equal to one integer, or are one pattern. -/
theorem sameNumber_real (x y : Binary64) :
    sameNumber (.real x) (.real y) = true ↔ canonical (.real x) = canonical (.real y) := by
  show x.sameNumber y = true ↔ _
  unfold Binary64.sameNumber Binary64.isZero canonical
  simp only [integer?, Bool.or_eq_true, Bool.and_eq_true, decide_eq_true_eq]
  cases hx : x.integer? with
  | none =>
    cases hy : y.integer? with
    | none => simp
    | some n =>
      have hne : x ≠ y := by
        rintro rfl
        rw [hx] at hy
        cases hy
      simp [hne]
  | some m =>
    cases hy : y.integer? with
    | none =>
      have hne : x ≠ y := by
        rintro rfl
        rw [hx] at hy
        cases hy
      simp [hne]
    | some n =>
      simp only [Option.some.injEq, Json.int.injEq]
      constructor
      · rintro (rfl | ⟨rfl, rfl⟩)
        · exact Option.some.inj (hx.symm.trans hy)
        · rfl
      · rintro rfl
        by_cases hzero : m = 0
        · exact .inr ⟨hzero, hzero⟩
        · exact .inl (Binary64.eq_of_integer?_eq_some hx hy hzero)

/-- A number that is an integer is the same as whatever is equal to that integer. -/
theorem sameNumber_integer {a : Json} {m : Int} (ha : a.integer? = some m)
    (hreal : ∀ x, a ≠ .real x) (b : Json) :
    sameNumber a b = true ↔ canonical a = canonical b := by
  have hsame : sameNumber a b =
      match b.integer? with
      | some n => decide (m = n)
      | none => false := by
    unfold sameNumber
    rw [ha]
    split
    · exact absurd rfl (hreal _)
    · cases b.integer? <;> rfl
  rw [hsame, canonical_eq_int ha]
  cases hb : b.integer? with
  | some n => rw [canonical_eq_int hb, Json.int.injEq, decide_eq_true_eq]
  | none =>
    rw [canonical_eq_self hb]
    constructor
    · intro h
      cases h
    · rintro rfl
      cases hb

/-- What is no integer is canonical, and nothing else has it as its canonical key. -/
theorem eq_iff_canonical {a : Json} (ha : a.integer? = none) (b : Json) :
    b = a ↔ canonical a = canonical b := by
  rw [canonical_eq_self ha]
  cases hb : b.integer? with
  | none =>
    rw [canonical_eq_self hb]
    exact eq_comm
  | some n =>
    rw [canonical_eq_int hb]
    constructor
    · rintro rfl
      rw [ha] at hb
      cases hb
    · rintro rfl
      cases ha

/-- **Equality by value is equality of canonical keys.** -/
theorem same_iff_canonical {a : Json} (ha : a.isKey = true) (b : Json) :
    a.same b = true ↔ a.canonical = b.canonical := by
  cases a with
  | arr vs => cases ha
  | obj fields => cases ha
  | null =>
    rw [same, decide_eq_true_eq]
    exact eq_iff_canonical rfl b
  | str s =>
    rw [same, decide_eq_true_eq]
    exact eq_iff_canonical rfl b
  | bool c =>
    rw [same]
    exact sameNumber_integer rfl (fun _ h => by cases h) b
  | int n =>
    rw [same]
    exact sameNumber_integer rfl (fun _ h => by cases h) b
  | real x =>
    rw [same]
    cases b with
    | real y => exact sameNumber_real x y
    | _ =>
      unfold sameNumber canonical
      simp only [integer?]
      cases x.integer? <;> simp [eq_comm]

/-- What is equal to a key by value is a key. -/
theorem isKey_of_canonical {a b : Json} (ha : a.isKey = true) (h : a.canonical = b.canonical) :
    b.isKey = true := by
  have hcanonical : ∀ v : Json, v.canonical.isKey = v.isKey := by
    intro v
    cases v with
    | real x =>
      unfold canonical
      split <;> rfl
    | _ => rfl
  rw [← hcanonical b, ← h, hcanonical a, ha]

theorem same_refl {a : Json} (ha : a.isKey = true) : a.same a = true :=
  (same_iff_canonical ha a).mpr rfl

theorem same_symm {a b : Json} (ha : a.isKey = true) (h : a.same b = true) : b.same a = true := by
  have heq := (same_iff_canonical ha b).mp h
  exact (same_iff_canonical (isKey_of_canonical ha heq) a).mpr heq.symm

theorem same_trans {a b c : Json} (ha : a.isKey = true) (hab : a.same b = true)
    (hbc : b.same c = true) : a.same c = true := by
  have heq := (same_iff_canonical ha b).mp hab
  have hb := isKey_of_canonical ha heq
  exact (same_iff_canonical ha c).mpr (heq.trans ((same_iff_canonical hb c).mp hbc))

end DeclCatalogue.Json
