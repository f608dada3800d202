import DeclCatalogue.Proofs.Catalogue.Counts
import DeclCatalogue.Proofs.CommandLine.Files
import DeclCatalogue.Proofs.Json.Ascii

/-!
# What is printed for a file

The lines that are printed for a file, and what becomes of them where it is run after other files:
only the tokens in placeholders are later ones. Since tokens are in ASCII, a console that has all of
ASCII prints a file after others exactly if it prints it alone (`printFault?_renumbered`), and has
every document (`textFault?_indented`).
-/

namespace DeclCatalogue.CommandLine

variable {w : Walker} {shift : Nat}

/-! ## Lines -/

/-- The text of the counts of a context. -/
def countsText (b : Bucket) : String :=
  ", ".intercalate (b.shownCounts.map fun c => c.1 ++ "=" ++ toString c.2)

/-- A line is the context in brackets and its counts. -/
theorem contextLine_eq (context : Json) (b : Bucket) :
    contextLine context b = "  [" ++ context.display ++ "] " ++ countsText b := rfl

/-- Counts that are shown leave no blank. -/
theorem countsText_ne_empty {b : Bucket} (h : b.shownCounts ≠ []) : countsText b ≠ "" := by
  intro hblank
  obtain ⟨c, rest, hcounts⟩ := List.exists_cons_of_ne_nil h
  have htext := congrArg String.toList hblank
  unfold countsText at htext
  rw [hcounts, String.toList_intercalate] at htext
  cases rest <;> simp [List.intercalate] at htext

/-- A line, and the same line with a later placeholder. -/
inductive LineRenumbered (w : Walker) (shift : Nat) : String → String → Prop where
  | same (line : String) : LineRenumbered w shift line line
  | importLine {i j : ImportRecord} (h : i.Renumbered w shift j) :
      LineRenumbered w shift (importLine i) (importLine j)

/-- What is printed for a file, and the same with later placeholders. -/
inductive TextRenumbered (w : Walker) (shift : Nat) : String → String → Prop where
  | nothing : TextRenumbered w shift "" ""
  | lines {lines later : List String} (h : List.Forall₂ (LineRenumbered w shift) lines later) :
      TextRenumbered w shift (printed ("\n".intercalate lines)) (printed ("\n".intercalate later))

/-- Catalogues that differ in placeholders have summaries that do. -/
theorem summary_renumbered {c d : Catalogue} (h : c.Renumbered w shift d) (path : String) :
    List.Forall₂ (LineRenumbered w shift) (summary path c) (summary path d) := by
  obtain ⟨hbuckets, hnamespaces, himports⟩ := h
  unfold summary
  rw [hbuckets, hnamespaces]
  refine List.rel_append (List.forall₂_same.mpr fun line _ => .same line) ?_
  rw [List.forall₂_map_left_iff, List.forall₂_map_right_iff]
  exact himports.imp fun _ _ hi => .importLine hi

/-! ## What the console has -/

namespace Console

variable {console : Console}

/-- The output has all characters of ASCII. -/
def HasAscii (console : Console) : Prop :=
  ∀ c, Text.isAscii c = true → console.writes c = true

theorem standard_hasAscii : standard.HasAscii := by
  intro c hc
  show (Text.unpaired? c).isNone = true
  rw [Text.unpaired?_of_isAscii hc]
  rfl

theorem HasAscii.each (hascii : console.HasAscii) {text : String} (h : Text.InAscii text) :
    Text.Each console.writes text :=
  fun c hc => hascii c (h c hc)

theorem textFault?_eq_none {text : String} :
    console.textFault? text = none ↔ Text.Each console.writes text := by
  unfold textFault? Text.Each
  rw [← List.all_eq_true]
  split
  next hall => exact iff_of_true rfl hall
  next hsome => exact iff_of_false (fun h => by cases h) hsome

theorem textFault?_congr {text other : String}
    (h : Text.Each console.writes text ↔ Text.Each console.writes other) :
    console.textFault? text = console.textFault? other := by
  unfold textFault?
  rw [show text.toList.all console.writes = other.toList.all console.writes from
    Bool.eq_iff_iff.mpr (by rw [List.all_eq_true, List.all_eq_true]; exact h)]

/-- Every document is in ASCII, so that the output has it. -/
theorem textFault?_indented (hascii : console.HasAscii) (step : Nat) (v : Json) :
    console.textFault? (printed (v.indented step)) = none :=
  textFault?_eq_none.mpr <| hascii.each <|
    Text.each_append.mpr ⟨Json.inAscii_indented step v, by decide⟩

end Console

section

variable {console : Console} (hascii : console.HasAscii)

include hascii

/-- The characters of a placeholder are those of its prefix and of ASCII. -/
theorem each_placeholder (token : Nat) :
    Text.Each console.writes (w.placeholder token) ↔
      Text.Each console.writes w.placeholderPrefix := by
  have htoken : Text.Each console.writes (w.tokens token).val :=
    fun c hc => hascii c (List.all_eq_true.mp (w.tokens token).property.2 c hc)
  unfold Walker.placeholder
  rw [Text.each_append]
  exact and_iff_left htoken

/-- The line of an import is written at a later token if it is at the first. -/
theorem each_importLine {i j : ImportRecord} (h : i.Renumbered w shift j) :
    Text.Each console.writes (importLine i) ↔ Text.Each console.writes (importLine j) := by
  cases h with
  | same => exact Iff.rfl
  | placeholder token source hfirst hlater =>
    obtain ⟨hkind, hwhat, hsource⟩ := ImportRecord.of?_eq_some.mp hfirst
    obtain ⟨hkind', hwhat', hsource'⟩ := ImportRecord.of?_eq_some.mp hlater
    have hsame : i.source.val = j.source.val := Json.str.inj (hsource.symm.trans hsource')
    unfold importLine
    rw [← hkind, ← hkind', hsame, ← Json.str.inj hwhat, ← Json.str.inj hwhat']
    simp only [Text.each_append, each_placeholder hascii]

theorem LineRenumbered.each {line later : String} (h : LineRenumbered w shift line later) :
    Text.Each console.writes line ↔ Text.Each console.writes later := by
  cases h with
  | same => exact Iff.rfl
  | importLine h => exact each_importLine hascii h

theorem each_summaryText {c d : Catalogue} (h : c.Renumbered w shift d) (path : String) :
    Text.Each console.writes (summaryText path c) ↔
      Text.Each console.writes (summaryText path d) := by
  have hline : Text.Each console.writes "\n" := hascii.each (by decide)
  unfold summaryText
  rw [Text.each_intercalate hline, Text.each_intercalate hline]
  have hlines := summary_renumbered h path
  generalize summary path c = lines, summary path d = later at hlines
  induction hlines with
  | nil => exact Iff.rfl
  | cons hfirst _ ih =>
    rw [List.forall_mem_cons, List.forall_mem_cons]
    exact and_congr (hfirst.each hascii) ih

/-- **Whether a catalogue can be printed does not depend on its placeholders.** -/
theorem printFault?_renumbered (options : Options) {c d : Catalogue} (h : c.Renumbered w shift d)
    (path : String) :
    printFault? console options path c = printFault? console options path d := by
  unfold printFault?
  split
  · -- the nodes of declarations are the same
    unfold Console.documentFault? Catalogue.declarations
    rw [h.buckets]
  · refine Console.textFault?_congr ?_
    unfold printed
    rw [Text.each_append, Text.each_append, each_summaryText hascii h path]

theorem bind_printFault?_renumbered (options : Options) {c? d? : Option Catalogue}
    (h : Option.Rel (Catalogue.Renumbered w shift) c? d?) (path : String) :
    c?.bind (printFault? console options path) = d?.bind (printFault? console options path) := by
  cases h with
  | none => rfl
  | some h => exact printFault?_renumbered hascii options h path

end

/-! ## Files -/

/-- Catalogues that are related are there together. -/
theorem isSome_eq_of_rel {R : Catalogue → Catalogue → Prop} {c? d? : Option Catalogue}
    (h : Option.Rel R c? d?) : c?.isSome = d?.isSome := by
  cases h <;> rfl

namespace FileRun

/-- What is printed for a file where summaries are printed: nothing if it was not extracted or
cannot be printed. -/
def text (run : FileRun) : String :=
  (run.printed?.map fun catalogue => printed (summaryText run.path catalogue)).getD ""

theorem text_eq_empty {run : FileRun} (h : run.catalogue? = none) : run.text = "" := by
  unfold text printed?
  rw [h, ite_self]
  rfl

/-- The run of a file, and the run of the same file from a later token on. -/
structure Renumbered (w : Walker) (shift : Nat) (run later : FileRun) : Prop where
  path : later.path = run.path
  outcome : run.outcome.Renumbered w shift later.outcome
  refused : later.refused? = run.refused?
  catalogue : Option.Rel (Catalogue.Renumbered w shift) run.catalogue? later.catalogue?
  text : TextRenumbered w shift run.text later.text

theorem catalogue?_renumbered {run later : FileRun}
    (h : run.outcome.Renumbered w shift later.outcome) :
    Option.Rel (Catalogue.Renumbered w shift) run.catalogue? later.catalogue? := by
  unfold catalogue?
  rw [h.result]
  cases run.outcome.result with
  | error fault => exact .none
  | ok value => exact .some ((Catalogue.Renumbered.refl _).replay (Event.Renumbered.pushes h.events))

theorem text_renumbered {run later : FileRun} (hpath : later.path = run.path)
    (hrefused : later.refused? = run.refused?)
    (hcatalogue : Option.Rel (Catalogue.Renumbered w shift) run.catalogue? later.catalogue?) :
    TextRenumbered w shift run.text later.text := by
  unfold text printed?
  rw [hpath, hrefused]
  generalize run.catalogue? = c?, later.catalogue? = d? at hcatalogue
  split
  · cases hcatalogue with
    | none => exact .nothing
    | some h => exact .lines (summary_renumbered h run.path)
  · exact .nothing

/-- A later run ends the run over all files if the first one does. -/
theorem Renumbered.ending? {run later : FileRun} (h : run.Renumbered w shift later) :
    later.ending? = run.ending? := by
  unfold FileRun.ending?
  rw [h.outcome.result, h.refused]

theorem fault?_isNone (run : FileRun) :
    run.fault?.isNone = (run.catalogue?.isSome && run.ending?.isNone) := by
  unfold fault? catalogue? FileRun.ending?
  cases run.outcome.result <;> rfl

end FileRun

/-- What is printed for the files of a run is printed for one after the other. -/
theorem summaries_eq_join (runs : List FileRun) :
    summaries runs = String.join (runs.map FileRun.text) := by
  unfold summaries
  induction runs with
  | nil => rfl
  | cons run rest ih =>
    rw [List.map_cons, String.join_cons, ← ih]
    unfold FileRun.text
    cases hrun : run.printed? with
    | none => simp [hrun]
    | some c => simp [hrun]

end DeclCatalogue.CommandLine
