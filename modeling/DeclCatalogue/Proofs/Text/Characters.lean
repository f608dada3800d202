import DeclCatalogue.Text.Surrogate

/-!
# Texts by their characters

A property of all characters of a text, as it passes to texts that are put together. That a text is
in ASCII is one of these properties, and that all of it stands for characters is another.
-/

namespace DeclCatalogue.Text

variable {p : Char → Bool} {s t : String}

/-- All characters of a text have a property. -/
def Each (p : Char → Bool) (s : String) : Prop := ∀ c ∈ s.toList, p c = true

-- decided by going through the text, and not through all characters that there are
instance : Decidable (Each p s) :=
  List.decidableBAll (fun c => p c = true) s.toList

theorem each_empty : Each p "" := fun c hc => by cases hc

theorem each_ofList {cs : List Char} : Each p (String.ofList cs) ↔ ∀ c ∈ cs, p c = true := by
  unfold Each
  rw [String.toList_ofList]

theorem each_append : Each p (s ++ t) ↔ Each p s ∧ Each p t := by
  unfold Each
  rw [String.toList_append]
  exact List.forall_mem_append

theorem each_intercalate (hs : Each p s) {texts : List String} :
    Each p (s.intercalate texts) ↔ ∀ t ∈ texts, Each p t := by
  induction texts with
  | nil => exact iff_of_true each_empty (List.forall_mem_nil _)
  | cons t rest ih =>
    rw [List.forall_mem_cons, ← ih]
    cases rest with
    | nil => simp [each_empty]
    | cons u rest => simp [String.intercalate_cons_cons, each_append, hs]

/-- All of a text is in ASCII. -/
abbrev InAscii (s : String) : Prop := Each isAscii s

theorem isWellFormed_iff_each : isWellFormed s = true ↔ Each (fun c => (unpaired? c).isNone) s :=
  List.all_eq_true

/-- Texts that stand for characters make such a text, with a point between them. -/
theorem isWellFormed_intercalate {texts : List String}
    (h : ∀ t ∈ texts, isWellFormed t = true) : isWellFormed (".".intercalate texts) = true := by
  have hpoint : isWellFormed "." = true := by decide +kernel
  rw [isWellFormed_iff_each, each_intercalate (isWellFormed_iff_each.mp hpoint)]
  exact fun t ht => isWellFormed_iff_each.mp (h t ht)

end DeclCatalogue.Text
