import DeclCatalogue.File.Store
import DeclCatalogue.Proofs.Text.Dotted

/-!
# Normalised paths lead to the same file

`Path.normalize` leaves out the parts of a path that say nothing. Following a path it is different
whether such a part is there, since a step has to start in a directory even if it leads nowhere; but
where a file is found at the end of a path, it is found without these parts as well
(`follow_filter`). So a file that is there is found under its normalised path
(`ofList_normalize`).
-/

namespace DeclCatalogue

/-- Whether a part of a path leads somewhere. -/
def Path.leads (part : String) : Bool :=
  part ≠ "" && part ≠ "."

/-- Pieces hold no separator. -/
theorem Text.not_mem_of_mem_splitOn {separator : Char} {cs piece : List Char}
    (h : piece ∈ splitOn separator cs) : separator ∉ piece := by
  induction cs generalizing piece with
  | nil =>
    obtain rfl : piece = [] := by simpa [splitOn] using h
    exact List.not_mem_nil
  | cons c rest ih =>
    rw [splitOn] at h
    cases hrest : splitOn separator rest with
    | nil => exact absurd hrest (splitOn_ne_nil separator rest)
    | cons first others =>
      rw [hrest] at h ih
      have hfirst := ih (List.mem_cons_self ..)
      dsimp only at h
      split at h
      · rcases List.mem_cons.mp h with rfl | hmem
        · exact List.not_mem_nil
        · exact ih hmem
      next hc =>
        rcases List.mem_cons.mp h with rfl | hmem
        · exact fun hmem => (List.mem_cons.mp hmem).elim (fun e => hc e.symm) hfirst
        · exact ih (List.mem_cons_of_mem _ hmem)

namespace Path

/-- All parts of a path, those that lead nowhere included. -/
def allParts (path : String) : List String :=
  (Text.splitOn '/' path.toList).map String.ofList

theorem parts_eq (path : String) : parts path = (allParts path).filter leads := rfl

theorem slash_not_mem_of_mem_allParts {path part : String} (h : part ∈ allParts path) :
    '/' ∉ part.toList := by
  obtain ⟨piece, hpiece, rfl⟩ := List.mem_map.mp h
  rw [String.toList_ofList]
  exact Text.not_mem_of_mem_splitOn hpiece

/-- Parts without slashes are read back from between them. -/
theorem allParts_intercalate {parts : List String} (hne : parts ≠ [])
    (h : ∀ part ∈ parts, '/' ∉ part.toList) : allParts ("/".intercalate parts) = parts := by
  have hsplit : Text.splitOn '/' (['/'].intercalate (parts.map String.toList)) =
      parts.map String.toList := by
    refine Text.splitOn_intercalate (by simpa using hne) fun piece hpiece => ?_
    obtain ⟨part, hpart, rfl⟩ := List.mem_map.mp hpiece
    exact h part hpart
  have hlist : ("/".intercalate parts).toList = ['/'].intercalate (parts.map String.toList) :=
    String.toList_intercalate
  unfold allParts
  rw [hlist, hsplit, List.map_map]
  exact (List.map_congr_left fun part _ => String.ofList_toList).trans (List.map_id _)

/-- Joined parts start with the first character of the first of them. -/
theorem head_intercalate {first : String} (h : first ≠ "") (rest : List String) :
    ∃ c cs, c ∈ first.toList ∧ ("/".intercalate (first :: rest)).toList = c :: cs := by
  cases hfirst : first.toList with
  | nil => exact absurd (String.toList_eq_nil_iff.mp hfirst) h
  | cons c cs =>
    rw [String.toList_intercalate, List.map_cons, hfirst]
    cases rest.map String.toList with
    | nil => exact ⟨c, _, List.mem_cons_self .., List.intercalate_singleton⟩
    | cons next others =>
      rw [List.intercalate_cons_cons]
      exact ⟨c, _, List.mem_cons_self .., rfl⟩

/-- A relative path that leads somewhere is normalised to its parts, and stays relative. -/
theorem normalize_relative {path : String} (hroot : root path = "") (hne : parts path ≠ []) :
    normalize path = "/".intercalate (parts path) ∧ normalize path ≠ "" ∧
      root (normalize path) = "" := by
  obtain ⟨first, rest, hparts⟩ := List.exists_cons_of_ne_nil hne
  have hmem : first ∈ (allParts path).filter leads := by
    rw [← parts_eq, hparts]
    exact List.mem_cons_self ..
  obtain ⟨hall, hleads⟩ := List.mem_filter.mp hmem
  have hfirst : first ≠ "" := by
    rintro rfl
    cases hleads
  obtain ⟨c, cs, hc, htext⟩ := head_intercalate hfirst rest
  have hslash : c ≠ '/' := fun e => slash_not_mem_of_mem_allParts hall (e ▸ hc)
  rw [← hparts] at htext
  have hjoined : "/".intercalate (parts path) ≠ "" := by
    intro hempty
    rw [hempty] at htext
    cases htext
  have hnormalize : normalize path = "/".intercalate (parts path) := by
    unfold normalize
    rw [hroot, String.empty_append]
    exact if_neg hjoined
  refine ⟨hnormalize, hnormalize ▸ hjoined, ?_⟩
  rw [hnormalize]
  unfold root
  rw [htext]
  split
  next h => exact absurd (List.cons.inj h).1 hslash
  next h => exact absurd (List.cons.inj h).1 hslash
  next h => exact absurd (List.cons.inj h).1 hslash
  next => rfl

end Path

namespace Files

/-- A step starts in a directory. -/
theorem follow_cons {stored : List (List String × ByteArray)} {place rest : List String}
    {part : String} {bytes : ByteArray}
    (h : follow stored place (part :: rest) = some (.file bytes)) :
    entryAt stored place = some .directory := by
  rw [follow] at h
  split at h
  · assumption
  · cases h

/-- **Parts that lead nowhere can be left out.** -/
theorem follow_filter {stored : List (List String × ByteArray)} {place pieces : List String}
    {bytes : ByteArray} (h : follow stored place pieces = some (.file bytes)) :
    follow stored place (pieces.filter Path.leads) = some (.file bytes) := by
  induction pieces generalizing place with
  | nil => exact h
  | cons part rest ih =>
    have hdirectory := follow_cons h
    rw [follow, hdirectory] at h
    dsimp only at h
    by_cases hnowhere : part = "" ∨ part = "."
    · rw [if_pos hnowhere] at h
      rw [List.filter_cons_of_neg (by simpa [Path.leads, imp_iff_not_or] using hnowhere)]
      exact ih h
    · rw [if_neg hnowhere] at h
      rw [List.filter_cons_of_pos (by simpa [Path.leads, not_or] using hnowhere), follow, hdirectory]
      dsimp only
      rw [if_neg hnowhere]
      split at h
      next hup =>
        rw [if_pos hup]
        split at h
        · cases h
        next hinside =>
          rw [if_neg hinside]
          exact ih h
      next hdown =>
        rw [if_neg hdown]
        exact ih h

/-- The files of a list, each under its parts. -/
def storedParts (listed : List (String × ByteArray)) : List (List String × ByteArray) :=
  (listed.map fun f => (Path.parts f.1, f.2)).reverse

/-- A relative path is followed by all of its parts. -/
theorem ofList_relative (listed : List (String × ByteArray)) {path : String} (hne : path ≠ "")
    (hroot : Path.root path = "") :
    ofList listed path = follow (storedParts listed) [] (Path.allParts path) := by
  unfold ofList
  rw [if_neg (by simp [hne, hroot])]
  rfl

/-- **A file is found under its normalised path,** if it is found. -/
theorem ofList_normalize {listed : List (String × ByteArray)} {path : String} {bytes : ByteArray}
    (h : ofList listed path = some (.file bytes)) :
    ofList listed (Path.normalize path) = some (.file bytes) := by
  have hrelative : path ≠ "" ∧ Path.root path = "" := by
    unfold ofList at h
    split at h
    · cases h
    · simp_all
  rw [ofList_relative listed hrelative.1 hrelative.2] at h
  have hfollow : follow (storedParts listed) [] (Path.parts path) = some (.file bytes) :=
    follow_filter h
  have hne : Path.parts path ≠ [] := by
    intro hnone
    have hsome : Path.allParts path ≠ [] := by
      simpa [Path.allParts] using Text.splitOn_ne_nil '/' path.toList
    -- the first step, of which there is one, starts in a directory
    obtain ⟨part, rest, hparts⟩ := List.exists_cons_of_ne_nil hsome
    rw [hparts] at h
    rw [hnone] at hfollow
    cases (follow_cons h).symm.trans hfollow
  obtain ⟨hnormalize, hnonempty, hroot⟩ := Path.normalize_relative hrelative.2 hne
  have hparts : Path.allParts (Path.normalize path) = Path.parts path := by
    rw [hnormalize]
    refine Path.allParts_intercalate hne fun part hpart => ?_
    exact Path.slash_not_mem_of_mem_allParts (List.mem_filter.mp hpart).1
  rw [ofList_relative listed hnonempty hroot, hparts]
  exact hfollow

theorem isFile_eq_true {files : Files} {path : String} :
    files.isFile path = true ↔ ∃ bytes, files path = some (.file bytes) := by
  unfold isFile
  split
  next bytes h => exact ⟨fun _ => ⟨bytes, h⟩, fun _ => rfl⟩
  next h =>
    refine ⟨fun h => (by cases h), ?_⟩
    rintro ⟨bytes, hbytes⟩
    exact absurd hbytes (h bytes)

/-- **Normalising a path loses no file** of a list. -/
theorem ofList_isFile_normalize {listed : List (String × ByteArray)} {path : String}
    (h : (ofList listed).isFile path = true) :
    (ofList listed).isFile (Path.normalize path) = true := by
  obtain ⟨bytes, hbytes⟩ := isFile_eq_true.mp h
  exact isFile_eq_true.mpr ⟨bytes, ofList_normalize hbytes⟩

end Files

end DeclCatalogue
