import DeclCatalogue.Cst.Source
import Mathlib.Data.List.Forall2
import Mathlib.Data.List.TakeWhile

/-!
# Dotted names

`segments` takes a dotted name apart at its points and cuts the white space around each piece.
`segments_of_isDotted` says that it undoes writing segments with points between them, whatever white
space stands around the points: cutting undoes the white space (`trim_around`), and splitting undoes
the points (`splitOn_intercalate`), since neither white space nor a segment holds a point.
-/

namespace DeclCatalogue

namespace Text

/-! ## White space -/

/-- What is cut off at the end does not change what is left of a text. -/
theorem trimEnd_append {p : Char → Bool} {after : List Char} (h : ∀ c ∈ after, p c = true)
    (cs : List Char) : trimEnd p (cs ++ after) = trimEnd p cs := by
  unfold trimEnd
  rw [List.reverse_append, List.dropWhile_append_of_pos fun c hc => h c (List.mem_reverse.mp hc)]

/-- Characters of the class around a text are cut off with those at its ends. -/
theorem trim_around {p : Char → Bool} {before after : List Char}
    (hbefore : ∀ c ∈ before, p c = true) (hafter : ∀ c ∈ after, p c = true) (cs : List Char) :
    trim p (before ++ cs ++ after) = trim p cs := by
  unfold trim
  rw [List.append_assoc, List.dropWhile_append_of_pos hbefore, List.dropWhile_append]
  split
  next hnone =>
    -- nothing but characters of the class: nothing is left on either side
    have hcs : cs.dropWhile p = [] := List.isEmpty_iff.mp hnone
    have hall : after.dropWhile p = [] := List.dropWhile_eq_nil_iff.mpr hafter
    rw [hcs, hall]
  next => exact trimEnd_append hafter _

/-! ## Points -/

theorem splitOn_of_not_mem {separator : Char} {cs : List Char} (h : separator ∉ cs) :
    splitOn separator cs = [cs] := by
  induction cs with
  | nil => rfl
  | cons c rest ih =>
    rw [List.mem_cons, not_or] at h
    rw [splitOn, ih h.2]
    exact if_neg (Ne.symm h.1)

/-- The piece up to the first separator. -/
theorem splitOn_append {separator : Char} {piece : List Char} (h : separator ∉ piece)
    (rest : List Char) :
    splitOn separator (piece ++ separator :: rest) = piece :: splitOn separator rest := by
  induction piece with
  | nil =>
    rw [List.nil_append, splitOn]
    cases hrest : splitOn separator rest with
    | nil => exact absurd hrest (splitOn_ne_nil separator rest)
    | cons first others => exact if_pos rfl
  | cons c piece ih =>
    rw [List.mem_cons, not_or] at h
    rw [List.cons_append, splitOn, ih h.2]
    exact if_neg (Ne.symm h.1)

/-- Splitting undoes joining. -/
theorem splitOn_intercalate {separator : Char} {pieces : List (List Char)} (hne : pieces ≠ [])
    (h : ∀ piece ∈ pieces, separator ∉ piece) :
    splitOn separator ([separator].intercalate pieces) = pieces := by
  induction pieces with
  | nil => exact absurd rfl hne
  | cons piece rest ih =>
    have hpiece := h piece (List.mem_cons_self ..)
    cases rest with
    | nil =>
      rw [List.intercalate_singleton]
      exact splitOn_of_not_mem hpiece
    | cons next others =>
      rw [List.intercalate_cons_cons, List.append_assoc, List.singleton_append,
        splitOn_append hpiece]
      exact congrArg _ (ih (List.cons_ne_nil next others) fun p hp => h p (List.mem_cons_of_mem _ hp))

end Text

/-! ## Segments -/

/-- A segment of a dotted name: not empty, without white space at its ends and without a point. -/
structure IsSegment (s : String) : Prop where
  nonempty : s ≠ ""
  trimmed : Text.trimBlank s = s
  pointless : '.' ∉ s.toList

/-- A segment with white space around it. -/
def IsPieceOf (piece : List Char) (segment : String) : Prop :=
  ∃ before after, (∀ c ∈ before, Text.isBlank c = true) ∧ (∀ c ∈ after, Text.isBlank c = true) ∧
    piece = before ++ segment.toList ++ after

/-- A text is made of segments with points between them and white space around the points. -/
def IsDotted (names : List String) (text : String) : Prop :=
  (∀ name ∈ names, IsSegment name) ∧
    ∃ pieces, List.Forall₂ IsPieceOf pieces names ∧ text.toList = ['.'].intercalate pieces

theorem IsPieceOf.pointless {piece : List Char} {segment : String} (h : IsPieceOf piece segment)
    (hsegment : IsSegment segment) : '.' ∉ piece := by
  obtain ⟨before, after, hbefore, hafter, rfl⟩ := h
  have hpoint : Text.isBlank '.' ≠ true := by decide
  simp only [List.mem_append, not_or]
  refine ⟨⟨fun hmem => ?_, hsegment.pointless⟩, fun hmem => ?_⟩
  · exact hpoint (hbefore _ hmem)
  · exact hpoint (hafter _ hmem)

theorem IsPieceOf.trim {piece : List Char} {segment : String} (h : IsPieceOf piece segment)
    (hsegment : IsSegment segment) :
    String.ofList (Text.trim Text.isBlank piece) = segment := by
  obtain ⟨before, after, hbefore, hafter, rfl⟩ := h
  rw [Text.trim_around hbefore hafter]
  exact hsegment.trimmed

/-- **The segments of a dotted text are those that it is made of.** -/
theorem segments_of_isDotted {names : List String} {text : String} (hne : names ≠ [])
    (h : IsDotted names text) : segments text = names := by
  obtain ⟨hsegments, pieces, hpieces, htext⟩ := h
  have hpoints : ∀ piece ∈ pieces, '.' ∉ piece := by
    clear htext hne
    induction hpieces with
    | nil => exact fun _ h => (by cases h)
    | cons hof _ ih =>
      refine List.forall_mem_cons.mpr ⟨hof.pointless (hsegments _ (List.mem_cons_self ..)), ?_⟩
      exact ih fun n hn => hsegments n (List.mem_cons_of_mem _ hn)
  have hpiecesNe : pieces ≠ [] := by
    rintro rfl
    cases hpieces
    exact hne rfl
  unfold segments
  rw [htext, Text.splitOn_intercalate hpiecesNe hpoints]
  clear htext hpoints hpiecesNe hne
  -- piece by piece; no segment is blank, so none is left out
  induction hpieces with
  | nil => rfl
  | @cons piece name pieces names hof _ ih =>
    have hname := hsegments name (List.mem_cons_self ..)
    rw [List.map_cons, hof.trim hname, List.filter_cons_of_pos (by simpa using hname.nonempty),
      ih fun n hn => hsegments n (List.mem_cons_of_mem _ hn)]

end DeclCatalogue
