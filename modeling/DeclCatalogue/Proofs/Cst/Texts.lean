import DeclCatalogue.Cst.Source
import DeclCatalogue.Proofs.Tree.Result

/-!
# Texts of a source

Whatever bytes stand for, they stand for characters, so no text of a source holds half a surrogate
pair (`yields_text`). Taking quotes off a text, cutting its ends and taking it apart at its points
only leave characters out, so what is made of such a text is of the same kind.
-/

namespace DeclCatalogue

namespace Text

/-- Leaving characters out of a text that stands for characters leaves such a text. -/
theorem isWellFormed_of_subset {s : String} {cs : List Char} (h : isWellFormed s = true)
    (hsub : cs ⊆ s.toList) : isWellFormed (String.ofList cs) = true :=
  isWellFormed_ofList.mpr fun c hc => isWellFormed_iff.mp h c (hsub hc)

theorem trimEnd_subset (p : Char → Bool) (cs : List Char) : trimEnd p cs ⊆ cs := by
  intro c hc
  have hkept := (List.dropWhile_suffix p).subset (List.mem_reverse.mp hc)
  exact List.mem_reverse.mp hkept

theorem trim_subset (p : Char → Bool) (cs : List Char) : trim p cs ⊆ cs :=
  fun _ hc => (List.dropWhile_suffix p).subset (trimEnd_subset p _ hc)

/-- The pieces of a text are made of its characters. -/
theorem subset_of_mem_splitOn {separator : Char} {cs piece : List Char}
    (h : piece ∈ splitOn separator cs) : piece ⊆ cs := by
  induction cs generalizing piece with
  | nil =>
    obtain rfl : piece = [] := by simpa [splitOn] using h
    exact List.Subset.refl _
  | cons c rest ih =>
    rw [splitOn] at h
    cases hrest : splitOn separator rest with
    | nil => exact absurd hrest (splitOn_ne_nil separator rest)
    | cons first others =>
      rw [hrest] at h ih
      dsimp only at h
      split at h
      · rcases List.mem_cons.mp h with rfl | hmem
        · exact List.nil_subset _
        · exact List.subset_cons_of_subset c (ih hmem)
      · rcases List.mem_cons.mp h with rfl | hmem
        · exact List.cons_subset_cons c (ih (List.mem_cons_self ..))
        · exact List.subset_cons_of_subset c (ih (List.mem_cons_of_mem _ hmem))

end Text

/-- **Every text of a source stands for characters.** -/
theorem Source.yields_text (source : Source) (head : CstHead) :
    Tree.Yields (source.text head) fun s => Text.isWellFormed s = true := by
  unfold Source.text Source.decode
  split
  next s _ => exact Tree.yields_ok (Text.isWellFormed_held s)
  next => exact fun _ h => by cases h

theorem Source.yields_textOf? {α : Type} (source : Source) (c : Option (Cst α)) :
    Tree.Yields (source.textOf? c) fun s => Text.isWellFormed s = true := by
  cases c with
  | none => exact Tree.yields_ok rfl
  | some c => exact source.yields_text c.head

theorem isWellFormed_unquote {s : String} (h : Text.isWellFormed s = true) :
    Text.isWellFormed (unquote s) = true := by
  unfold unquote
  split
  next => exact h
  next quote rest hs =>
    split
    · refine Text.isWellFormed_of_subset h ?_
      rw [hs]
      exact List.subset_cons_of_subset quote (List.dropLast_sublist rest).subset
    · exact h

theorem isWellFormed_of_mem_segments {text segment : String} (htext : Text.isWellFormed text = true)
    (h : segment ∈ segments text) : Text.isWellFormed segment = true := by
  obtain ⟨piece, hpiece, rfl⟩ := List.mem_map.mp (List.mem_filter.mp h).1
  refine Text.isWellFormed_of_subset htext fun c hc => ?_
  exact Text.subset_of_mem_splitOn hpiece (Text.trim_subset Text.isBlank piece hc)

end DeclCatalogue
