import DeclCatalogue.Proofs.CommandLine.Printing
import DeclCatalogue.Proofs.Json.Keys

/-!
# Files do not disturb each other

A use of the command over several files is compared with the uses over each of them alone.
`RunReport.IsIsolated` lists what the two have in common: a file that cannot be extracted prints
nothing and leaves the others as they are, and a file that can prints what is printed for it alone.
What may differ are the placeholders of imports without a name, whose tokens are counted over the
whole run.

There is one way in which a file does disturb those behind it: what was extracted from it cannot be
printed. Then the run ends with this file, as the run over the file alone does, and of several files
that are to go into one document none is printed. `respond_isolated` says that this is all, for all
files that are there, with settings that are valid and a table of kinds that can be loaded.
-/

namespace DeclCatalogue.CommandLine

variable {w : Walker} {shift : Nat}

/-! ## A file alone -/

section

variable (console : Console) (world : World) (options : Options) (settings : Settings)

/-- The run of the command over one file alone. -/
def runAlone (path : String) : RunReport :=
  runOptions console world { options with files := [path] } settings

/-- The catalogue that is extracted from a file alone; none if it fails. -/
def catalogueAlone? (path : String) : Option Catalogue :=
  (runAlone console world options settings path).runs.head?.bind FileRun.catalogue?

/-- The fault that ends the run over a file alone, if one does. -/
def endAlone? (path : String) : Option Fault :=
  (runAlone console world options settings path).uncaught

/-- The files of a run up to the first that ends the run over it alone, that one included. -/
def reached : List String :=
  upTo (fun path => (endAlone? console world options settings path).isSome) options.files

/-- **What several files have in common with each of them alone.** Placeholders are those of the
walker `w`. -/
structure RunReport.IsIsolated (w : Walker) (report : RunReport) : Prop where
  /-- A file that is extracted ends the run over it alone if it cannot be printed, and a file that
  fails does not. -/
  ends : ∀ path ∈ options.files, endAlone? console world options settings path =
    (catalogueAlone? console world options settings path).bind
      (printFault? console options (Path.normalize path))
  /-- The run ends as the first of the files does that ends a run alone. It comes to its end if there
  is none. -/
  uncaught : report.uncaught = options.files.findSome? (endAlone? console world options settings)
  /-- Up to that one every file is run, in order, and ends as it does alone. -/
  runs : List.Forall₂ (fun path run => ∃ single shift,
      (runAlone console world options settings path).runs = [single] ∧
        run.path = Path.normalize path ∧ single.Renumbered w shift run)
    (reached console world options settings) report.runs
  /-- The summaries are those of the files alone, in order; a file that fails has none. -/
  summaries : options.json = false →
    report.output = String.join (report.runs.map FileRun.text) ∧
    List.Forall₂ (fun path run =>
        (∃ shift, TextRenumbered w shift
          (runAlone console world options settings path).output run.text) ∧
        (catalogueAlone? console world options settings path = none → run.text = ""))
      (reached console world options settings) report.runs
  /-- If the run comes to its end, the document has the paths of the files that do not fail, and
  under each the catalogue of the file alone. -/
  document : options.json = true → report.uncaught = none → ∃ fields,
    report.output = printed ((Json.obj fields).indented 2) ∧
    Json.keys fields = ((options.files.filter fun path =>
      (catalogueAlone? console world options settings path).isSome).map Path.normalize).eraseDups ∧
    ∀ path ∈ options.files, ∀ catalogue,
      catalogueAlone? console world options settings path = some catalogue →
      ∃ shift found, catalogue.Renumbered w shift found ∧
        Json.find? (Path.normalize path) fields = some (found.document options.nodes)
  /-- If it does not, there is no document. -/
  undocumented : options.json = true → report.uncaught ≠ none → report.output = ""
  /-- The run fails if some file fails alone or ends the run. -/
  exitCode : report.exitCode =
    if options.files.all fun path =>
      (catalogueAlone? console world options settings path).isSome &&
        (endAlone? console world options settings path).isNone then 0
    else 1
  /-- The counts in the line of a context are those of the records pushed under it. -/
  counts : ∀ run ∈ report.runs, ∀ catalogue, run.catalogue? = some catalogue →
    ∀ entry ∈ catalogue.buckets,
      contextLine entry.1 entry.2 = "  [" ++ entry.1.display ++ "] " ++ countsText entry.2 ∧
      (entry.2.shownCounts.map (·.2)).sum =
        (Event.pushes run.outcome.events).countP (Push.goesTo entry.1) ∧
      countsText entry.2 ≠ ""

end

variable {console : Console} {world : World} {options : Options} {settings : Settings}
  {kinds : KindTable} {path : String}

/-- A run that a file ends. -/
theorem runOptions_ended {fault : Fault}
    (h : (runFiles console world options settings 0 options.files).findSome? FileRun.ending? =
      some fault) :
    let runs := runFiles console world options settings 0 options.files
    runOptions console world options settings =
      ⟨runs, if options.json then "" else summaries runs, some fault⟩ := by
  unfold runOptions
  dsimp only
  rw [h]

/-- A run that no file ends, where the output has all of ASCII. -/
theorem runOptions_complete (hascii : console.HasAscii)
    (h : (runFiles console world options settings 0 options.files).findSome? FileRun.ending? =
      none) :
    let runs := runFiles console world options settings 0 options.files
    runOptions console world options settings =
      ⟨runs, if options.json then printed ((document options.nodes runs).indented 2)
        else summaries runs, none⟩ := by
  unfold runOptions
  dsimp only
  rw [h, Console.textFault?_indented hascii]
  dsimp only
  split <;> rfl

/-- Where the output has all of ASCII, nothing but a file ends a run. -/
theorem uncaught_runOptions (hascii : console.HasAscii) :
    (runOptions console world options settings).uncaught =
      (runFiles console world options settings 0 options.files).findSome? FileRun.ending? := by
  cases hfound :
      (runFiles console world options settings 0 options.files).findSome? FileRun.ending? with
  | some fault => rw [runOptions_ended hfound]
  | none => rw [runOptions_complete hascii hfound]

theorem runs_runOptions :
    (runOptions console world options settings).runs =
      runFiles console world options settings 0 options.files := by
  unfold runOptions
  dsimp only
  split
  · rfl
  · split
    · split <;> rfl
    · rfl

theorem output_runOptions (hjson : options.json = false) :
    (runOptions console world options settings).output =
      summaries (runFiles console world options settings 0 options.files) := by
  unfold runOptions
  dsimp only
  rw [if_neg (by simp [hjson]), if_neg (by simp [hjson])]
  split <;> rfl

/-- The document of a run that comes to its end. -/
theorem output_document (hascii : console.HasAscii) (hjson : options.json = true)
    (hend : (runOptions console world options settings).uncaught = none) :
    (runOptions console world options settings).output =
      printed ((document options.nodes
        (runOptions console world options settings).runs).indented 2) := by
  rw [uncaught_runOptions hascii] at hend
  rw [runOptions_complete hascii hend, if_pos hjson]

theorem output_undocumented (hascii : console.HasAscii) (hjson : options.json = true)
    (hend : (runOptions console world options settings).uncaught ≠ none) :
    (runOptions console world options settings).output = "" := by
  rw [uncaught_runOptions hascii] at hend
  obtain ⟨fault, hfault⟩ := Option.ne_none_iff_exists'.mp hend
  rw [runOptions_ended hfault, if_pos hjson]

/-- Which files there are makes no difference to the run of one of them. -/
theorem runFile_withFiles (files : List String) (before : Nat) (path : String) :
    runFile console world { options with files := files } settings before path =
      runFile console world options settings before path := rfl

theorem runs_runAlone : (runAlone console world options settings path).runs =
    [runFile console world options settings 0 path] := by
  unfold runAlone
  rw [runs_runOptions, runFiles_singleton, runFile_withFiles]

theorem catalogueAlone?_eq : catalogueAlone? console world options settings path =
    (runFile console world options settings 0 path).catalogue? := by
  unfold catalogueAlone?
  rw [runs_runAlone]
  rfl

theorem endAlone?_eq (hascii : console.HasAscii) : endAlone? console world options settings path =
    (runFile console world options settings 0 path).ending? := by
  unfold endAlone? runAlone
  rw [uncaught_runOptions hascii, runFiles_singleton, runFile_withFiles]
  simp

theorem output_runAlone (hjson : options.json = false) :
    (runAlone console world options settings path).output =
      (runFile console world options settings 0 path).text := by
  have hlone : ({ options with files := [path] } : Options).json = false := hjson
  unfold runAlone
  rw [output_runOptions hlone, runFiles_singleton, runFile_withFiles, summaries_eq_join,
    List.map_singleton, String.join_cons, String.join_nil, String.append_empty]

/-- A file that is run from some token on, and the file alone. -/
theorem runFile_renumbered (hascii : console.HasAscii)
    (hkinds : settings.kindTable world.files = .ok kinds) (before : Nat) (path : String) :
    (runFile console world options settings 0 path).Renumbered
      (settings.walker kinds world.tokens) before
      (runFile console world options settings before path) := by
  have houtcome : (runFile console world options settings 0 path).outcome.Renumbered
      (settings.walker kinds world.tokens) before
      (runFile console world options settings before path).outcome :=
    world.extractFile_renumbers hkinds before path options.module 0
  have hcatalogue := FileRun.catalogue?_renumbered houtcome
  have hrefused : (runFile console world options settings before path).refused? =
      (runFile console world options settings 0 path).refused? := by
    rw [refused?_runFile, refused?_runFile]
    exact (bind_printFault?_renumbered hascii options hcatalogue _).symm
  exact ⟨rfl, houtcome, hrefused, hcatalogue, FileRun.text_renumbered rfl hrefused hcatalogue⟩

/-- Files under one path are run alike. -/
theorem runFile_congr {other : String} (h : Path.normalize path = Path.normalize other)
    (before : Nat) :
    runFile console world options settings before path =
      runFile console world options settings before other := by
  unfold runFile
  rw [h, world.extractFile_congr h]

/-! ## All files -/

/-- The fields of the document of a run, before those with one name are put together. -/
theorem keys_documented (withNodes : Bool) (runs : List FileRun) :
    Json.keys (runs.filterMap fun run => run.catalogue?.map fun catalogue =>
        (run.path, catalogue.document withNodes)) =
      (runs.filter fun run => run.catalogue?.isSome).map FileRun.path := by
  induction runs with
  | nil => rfl
  | cons run rest ih =>
    cases hrun : run.catalogue? with
    | none =>
      rw [List.filterMap_cons_none (by simp [hrun]), List.filter_cons_of_neg (by simp [hrun]), ih]
    | some c =>
      rw [List.filterMap_cons_some (by simp [hrun]; rfl), List.filter_cons_of_pos (by simp [hrun]),
        List.map_cons, ← ih]
      rfl

/-- The counts in the lines of a run. -/
theorem counts_runFiles (hkinds : settings.kindTable world.files = .ok kinds) {run : FileRun}
    (hrun : run ∈ (runOptions console world options settings).runs) {catalogue : Catalogue}
    (hcatalogue : run.catalogue? = some catalogue) {entry : Json × Bucket}
    (hentry : entry ∈ catalogue.buckets) :
    (entry.2.shownCounts.map (·.2)).sum =
        (Event.pushes run.outcome.events).countP (Push.goesTo entry.1) ∧
      countsText entry.2 ≠ "" := by
  rw [runs_runOptions] at hrun
  obtain ⟨path, -, before, rfl⟩ := mem_runFiles hrun
  have husable : ∀ p ∈ Event.pushes (world.extractFile settings path options.module before).events,
      p.isUsable = true := fun p hp =>
    (world.extractFile_usable hkinds path options.module before).1 _ (Walker.mem_pushes hp) p rfl
  unfold FileRun.catalogue? at hcatalogue
  split at hcatalogue
  · obtain rfl := Option.some.inj hcatalogue
    obtain ⟨hsum, hshown⟩ := Catalogue.shownCounts_replay husable hentry
    exact ⟨hsum, countsText_ne_empty hshown⟩
  · cases hcatalogue

/-- Where no file ends the run, all of them are reached. -/
theorem upTo_eq_self {ends : String → Bool} {files : List String}
    (h : ∀ path ∈ files, ends path = false) : upTo ends files = files := by
  induction files with
  | nil => rfl
  | cons path rest ih =>
    rw [upTo, if_neg (by simp [h path (List.mem_cons_self ..)]),
      ih fun p hp => h p (List.mem_cons_of_mem _ hp)]

section

variable (hascii : console.HasAscii) (hkinds : settings.kindTable world.files = .ok kinds)

include hascii hkinds

/-- Whether a file ends the run does not depend on where it is run. -/
theorem ending?_before (before : Nat) (path : String) :
    (runFile console world options settings before path).ending? =
      endAlone? console world options settings path := by
  rw [endAlone?_eq hascii]
  exact (runFile_renumbered hascii hkinds before path).ending?

/-- The files that are reached are run, each from some number of tokens on. -/
theorem runs_reached :
    List.Forall₂ (fun path run => ∃ before,
        run = runFile console world options settings before path)
      (reached console world options settings) (runOptions console world options settings).runs := by
  rw [runs_runOptions]
  exact runFiles_forall₂ (fun path _ before => by rw [ending?_before hascii hkinds]) 0

/-- **The run ends as the first of the files does that ends a run alone.** -/
theorem uncaught_eq : (runOptions console world options settings).uncaught =
    options.files.findSome? (endAlone? console world options settings) := by
  have hfiles : ∀ (files : List String) (drawn : Nat),
      (runFiles console world options settings drawn files).findSome? FileRun.ending? =
        files.findSome? (endAlone? console world options settings) := by
    intro files
    induction files with
    | nil => exact fun _ => rfl
    | cons path rest ih =>
      intro drawn
      have hfirst : (runFile console world options settings drawn path).ending? =
          endAlone? console world options settings path := ending?_before hascii hkinds drawn path
      rw [runFiles, List.findSome?_cons, ← hfirst]
      cases hending : (runFile console world options settings drawn path).ending? with
      | some fault => simp [hending]
      | none => simp [hending, ih]
  rw [uncaught_runOptions hascii, hfiles]

/-- A run that comes to its end has run all files. -/
theorem runs_all (hend : (runOptions console world options settings).uncaught = none) :
    List.Forall₂ (fun path run => ∃ before,
        run = runFile console world options settings before path)
      options.files (runOptions console world options settings).runs := by
  have hnone : ∀ path ∈ options.files,
      (endAlone? console world options settings path).isSome = false := by
    rw [uncaught_eq hascii hkinds, List.findSome?_eq_none_iff] at hend
    exact fun path hpath => by rw [hend path hpath]; rfl
  have hreached : reached console world options settings = options.files := upTo_eq_self hnone
  rw [← hreached]
  exact runs_reached hascii hkinds

/-- Which paths there are, and which of the files fail, is the same as for the files alone. -/
theorem paths_runFiles (hend : (runOptions console world options settings).uncaught = none) :
    (options.files.map fun path => (Path.normalize path,
        (catalogueAlone? console world options settings path).isSome)) =
      (runOptions console world options settings).runs.map fun run =>
        (run.path, run.catalogue?.isSome) := by
  rw [← List.forall₂_eq_eq_eq, List.forall₂_map_left_iff, List.forall₂_map_right_iff]
  refine (runs_all hascii hkinds hend).imp fun path run => ?_
  rintro ⟨before, rfl⟩
  rw [catalogueAlone?_eq]
  exact Prod.ext rfl (isSome_eq_of_rel (runFile_renumbered hascii hkinds before path).catalogue)

/-- A run fails if one of its files fails alone or ends the run. -/
theorem exitCode_runOptions : (runOptions console world options settings).exitCode =
    if options.files.all fun path =>
      (catalogueAlone? console world options settings path).isSome &&
        (endAlone? console world options settings path).isNone then 0
    else 1 := by
  unfold RunReport.exitCode
  cases hend : (runOptions console world options settings).uncaught with
  | some fault =>
    rw [uncaught_eq hascii hkinds] at hend
    obtain ⟨path, hpath, hfault⟩ := List.exists_of_findSome?_eq_some hend
    have hfails : (options.files.all fun path =>
        (catalogueAlone? console world options settings path).isSome &&
          (endAlone? console world options settings path).isNone) = false :=
      List.all_eq_false.mpr ⟨path, hpath, by simp [hfault]⟩
    rw [hfails]
    rfl
  | none =>
    have hruns : (options.files.map fun path =>
        (catalogueAlone? console world options settings path).isSome &&
          (endAlone? console world options settings path).isNone) =
        (runOptions console world options settings).runs.map fun run => run.fault?.isNone := by
      rw [← List.forall₂_eq_eq_eq, List.forall₂_map_left_iff, List.forall₂_map_right_iff]
      refine (runs_all hascii hkinds hend).imp fun path run => ?_
      rintro ⟨before, rfl⟩
      rw [FileRun.fault?_isNone, ending?_before hascii hkinds, catalogueAlone?_eq,
        isSome_eq_of_rel (runFile_renumbered hascii hkinds before path).catalogue]
    have hall := congrArg (List.all · id) hruns
    simp only [List.all_map, Function.comp_def, id] at hall
    rw [hall]
    rfl

/-- The names in the document of a run. -/
theorem keys_document (hend : (runOptions console world options settings).uncaught = none)
    (withNodes : Bool) :
    Json.keys (Json.ofPairs ((runOptions console world options settings).runs.filterMap fun run =>
        run.catalogue?.map fun catalogue => (run.path, catalogue.document withNodes))) =
      ((options.files.filter fun path =>
        (catalogueAlone? console world options settings path).isSome).map
          Path.normalize).eraseDups := by
  have hpaths := congrArg (fun paths => (paths.filter (·.2)).map (·.1))
    (paths_runFiles hascii hkinds hend)
  simp only [List.filter_map, List.map_map, Function.comp_def] at hpaths
  rw [Json.keys_ofPairs, keys_documented, hpaths]

/-- What stands in the document of a run under the path of a file. -/
theorem find?_document (hend : (runOptions console world options settings).uncaught = none)
    (withNodes : Bool) (hpath : path ∈ options.files) {catalogue : Catalogue}
    (hcatalogue : catalogueAlone? console world options settings path = some catalogue) :
    ∃ shift found, catalogue.Renumbered (settings.walker kinds world.tokens) shift found ∧
      Json.find? (Path.normalize path)
        (Json.ofPairs ((runOptions console world options settings).runs.filterMap fun run =>
          run.catalogue?.map fun catalogue => (run.path, catalogue.document withNodes))) =
        some (found.document withNodes) := by
  have hkey : Path.normalize path ∈ ((options.files.filter fun path =>
      (catalogueAlone? console world options settings path).isSome).map Path.normalize) :=
    List.mem_map.mpr ⟨path, List.mem_filter.mpr ⟨hpath, by rw [hcatalogue]; rfl⟩, rfl⟩
  rw [← List.mem_eraseDups, ← keys_document hascii hkinds hend withNodes, Json.keys_ofPairs,
    List.mem_eraseDups] at hkey
  obtain ⟨value, hfind, hvalue⟩ := Json.exists_find?_ofPairs hkey
  obtain ⟨run, hrun, hfound⟩ := List.mem_filterMap.mp hvalue
  obtain ⟨found, hsome, hpair⟩ := Option.map_eq_some_iff.mp hfound
  -- the value may come from another file of the list, but the path is the same
  rw [runs_runOptions] at hrun
  obtain ⟨other, -, before, rfl⟩ := mem_runFiles hrun
  obtain ⟨hsame, rfl⟩ := Prod.mk.inj hpair
  rw [runFile_congr hsame] at hsome
  have hrelated : Option.Rel _ (runFile console world options settings 0 path).catalogue?
      (runFile console world options settings before path).catalogue? :=
    (runFile_renumbered hascii hkinds before path).catalogue
  rw [← catalogueAlone?_eq, hcatalogue, hsome] at hrelated
  cases hrelated with
  | some h => exact ⟨before, found, h, hfind⟩

/-- A run over several files has everything in common with the runs over each of them alone. -/
theorem runOptions_isIsolated
    (hfiles : ∀ path ∈ options.files, world.files.isFile (Path.normalize path) = true) :
    (runOptions console world options settings).IsIsolated console world options
      settings (settings.walker kinds world.tokens) where
  ends := fun path hpath => by
    rw [endAlone?_eq hascii, catalogueAlone?_eq]
    exact ending?_runFile hkinds (hfiles path hpath) 0
  uncaught := uncaught_eq hascii hkinds
  runs := (runs_reached hascii hkinds).imp fun path run => by
    rintro ⟨before, rfl⟩
    exact ⟨_, before, runs_runAlone, rfl, runFile_renumbered hascii hkinds before path⟩
  summaries := fun hjson => by
    refine ⟨?_, (runs_reached hascii hkinds).imp fun path run => ?_⟩
    · rw [output_runOptions hjson, runs_runOptions, summaries_eq_join]
    · rintro ⟨before, rfl⟩
      have hrenumbered : (runFile console world options settings 0 path).Renumbered
          (settings.walker kinds world.tokens) before
          (runFile console world options settings before path) :=
        runFile_renumbered hascii hkinds before path
      rw [output_runAlone hjson, catalogueAlone?_eq]
      refine ⟨⟨before, hrenumbered.text⟩, fun hnone => FileRun.text_eq_empty ?_⟩
      have hsome := isSome_eq_of_rel hrenumbered.catalogue
      rw [hnone] at hsome
      exact Option.not_isSome_iff_eq_none.mp (by simp [← hsome])
  document := fun hjson hend =>
    ⟨_, output_document hascii hjson hend, keys_document hascii hkinds hend options.nodes,
      fun _ hpath _ hcatalogue =>
        find?_document hascii hkinds hend options.nodes hpath hcatalogue⟩
  undocumented := output_undocumented hascii
  exitCode := exitCode_runOptions hascii hkinds
  counts := fun run hrun catalogue hcatalogue entry hentry =>
    ⟨contextLine_eq _ _, counts_runFiles hkinds hrun hcatalogue hentry⟩

end

/-! ## The command -/

/-- What is accepted is what is read, and unless help is asked for the files are there. -/
theorem read_of_ofArguments {isFile : String → Bool} {arguments : List String}
    (h : Options.ofArguments isFile arguments = .ok options) :
    Options.standard.read arguments = .ok options ∧
      (options.help = false → ∀ path ∈ options.files, isFile path = true) := by
  unfold Options.ofArguments at h
  cases hread : Options.standard.read arguments with
  | error fault =>
    rw [hread] at h
    cases h
  | ok found =>
    rw [hread] at h
    dsimp only [bind, Except.bind] at h
    split at h
    next hfound =>
      obtain rfl := Except.ok.inj h
      exact ⟨rfl, fun hhelp => by cases hfound.symm.trans hhelp⟩
    next =>
      split at h
      · cases h
      · split at h
        · cases h
        next hnone =>
          obtain rfl := Except.ok.inj h
          exact ⟨rfl, fun _ path hpath => by simpa using List.find?_eq_none.mp hnone path hpath⟩

/-- Settings do not depend on the files. -/
theorem settingsOf_files (options : Options) (environment : List (String × String))
    (files : List String) :
    settingsOf { options with files := files } environment = settingsOf options environment := rfl

/-- A use that is accepted and asks for no help, with settings that are valid. -/
theorem respond_eq {environment : List (String × String)} {arguments : List String}
    (hoptions : Options.ofArguments world.files.isFile arguments = .ok options)
    (hhelp : options.help = false) (hsettings : settingsOf options environment = .ok settings) :
    respond console world environment arguments =
      .finished (runOptions console world options settings) := by
  unfold respond
  rw [hoptions]
  dsimp only
  rw [if_neg (by simp [hhelp]), hsettings]

/-- A use with the same options over one file is the run of that file alone. -/
theorem respond_eq_runAlone {environment : List (String × String)} {arguments : List String}
    (hoptions : Options.ofArguments world.files.isFile arguments =
      .ok { options with files := [path] })
    (hhelp : options.help = false) (hsettings : settingsOf options environment = .ok settings) :
    respond console world environment arguments =
      .finished (runAlone console world options settings path) :=
  respond_eq hoptions hhelp ((settingsOf_files options environment [path]).trans hsettings)

/-- **Files are isolated from each other.** Let the command be used, without asking for help, with
arguments that name files which are there, in any order and with any repetitions, and let the
settings be valid, the table of kinds one that can be loaded, and the output one that has ASCII.
Then, whatever the files hold and whatever the parser makes of them, all that the run shows of a file
is what the file shows alone, up to the placeholders of imports without a name, and a file that fails
is left out. The run ends early exactly if some file was extracted and cannot be printed.

The files are looked for by the arguments as they stand and read under their normalised paths. Where
files are kept in a list, they are there under these too (`Files.ofList_isFile_normalize`). -/
theorem respond_isolated (console : Console) (world : World)
    (environment : List (String × String)) (arguments : List String) {options : Options}
    {settings : Settings} {kinds : KindTable} (hascii : console.HasAscii)
    (hoptions : Options.ofArguments world.files.isFile arguments = .ok options)
    (hhelp : options.help = false) (hsettings : settingsOf options environment = .ok settings)
    (hkinds : settings.kindTable world.files = .ok kinds)
    (hfiles : ∀ path ∈ options.files, world.files.isFile (Path.normalize path) = true) :
    ∃ report, respond console world environment arguments = .finished report ∧
      report.IsIsolated console world options settings (settings.walker kinds world.tokens) := by
  exact ⟨_, respond_eq hoptions hhelp hsettings, runOptions_isIsolated hascii hkinds hfiles⟩

/-- A file that imports a module for its effects is given twice, with a file in between that holds a
class without a name. The class fails, and shows nothing. Among summaries the import is shown twice,
with tokens one behind the other, and the document, as it is read back, has it once, with the last
token. -/
theorem respond_isolated_repeated :
    let imports : SourceTree := .node ⟨"program", true, none, 0, 10⟩ ()
      [.node ⟨"import_statement", true, none, 0, 10⟩ ()
        [.node ⟨"string", true, some "source", 7, 10⟩ () []]]
    let nameless : SourceTree := .node ⟨"program", true, none, 0, 8⟩ ()
      [.node ⟨"class_declaration", true, none, 0, 8⟩ () []]
    let world := World.ofParsed
      [("import 'x'".toUTF8, ⟨imports, false⟩), ("class {}".toUTF8, ⟨nameless, false⟩)]
      (Files.ofList [("a.ts", "import 'x'".toUTF8), ("b.ts", "class {}".toUTF8)])
    let files := ["a.ts", "./b.ts", "a.ts"]
    let options := { Options.standard with files := files }
    let walker := Settings.standard.walker .standard .counted
    (∃ report, respond .standard world [] files = .finished report ∧
      report.IsIsolated .standard world options Settings.standard walker ∧
      report.uncaught = none ∧ report.exitCode = 1 ∧
      report.output =
        "a.ts:\n  import default npm$import$00000000000000000000000000000001 from x\n" ++
        "a.ts:\n  import default npm$import$00000000000000000000000000000002 from x\n") ∧
    ∃ report, respond .standard world [] ("--json" :: files) = .finished report ∧
      report.IsIsolated .standard world { options with json := true } Settings.standard walker ∧
      report.uncaught = none ∧ report.exitCode = 1 ∧
      Json.read report.output = .ok (.obj [("a.ts", .obj [("contexts", .obj []),
        ("namespaces", .arr []), ("imports", .arr [.obj [("type", .str "default"),
          ("what", .str "npm$import$00000000000000000000000000000002"),
          ("from", .str "x")]])])]) := by
  intro imports nameless world files options walker
  have hstandard : settingsOf Options.standard [] = .ok Settings.standard := by rfl
  have hkinds : Settings.standard.kindTable world.files = .ok .standard := rfl
  have hrun : ∀ (arguments : List String) (given : Options),
      Options.ofArguments world.files.isFile arguments = .ok given → given.help = false →
        settingsOf given [] = .ok Settings.standard →
          respond .standard world [] arguments =
              .finished (runOptions .standard world given Settings.standard) ∧
            (runOptions .standard world given Settings.standard).IsIsolated .standard world given
              Settings.standard walker := by
    intro arguments given hgiven hhelp hsettings
    have hfiles : ∀ path ∈ given.files, world.files.isFile (Path.normalize path) = true :=
      fun path hpath =>
        Files.ofList_isFile_normalize ((read_of_ofArguments hgiven).2 hhelp path hpath)
    obtain ⟨report, hreport, hisolated⟩ := respond_isolated .standard world [] arguments
      Console.standard_hasAscii hgiven hhelp hsettings hkinds hfiles
    have hsame := hreport.symm.trans (respond_eq hgiven hhelp hsettings)
    rw [Response.finished.inj hsame] at hreport hisolated
    exact ⟨hreport, hisolated⟩
  obtain ⟨hshown, hsummaries⟩ := hrun files options (by decide +kernel) rfl hstandard
  obtain ⟨hprinted, hdocument⟩ :=
    hrun ("--json" :: files) { options with json := true } (by decide +kernel) rfl hstandard
  exact ⟨⟨_, hshown, hsummaries, by decide +kernel⟩, ⟨_, hprinted, hdocument, by decide +kernel⟩⟩

/-- **A file that cannot be printed stops the others:** behind a type in many parentheses, which nests
too deeply for a document with its nodes, an empty file is not run and no document is printed. -/
theorem respond_nestedTooDeeply :
    let word : SourceTree := .node ⟨"predefined_type", true, none, 0, 1⟩ () []
    let deep : SourceTree := Nat.repeat (fun inner : SourceTree =>
      .node ⟨"parenthesized_type", true, none, 0, 1⟩ () [inner]) 260 word
    let named : SourceTree := .node ⟨"program", true, none, 0, 1⟩ () [
      .node ⟨"type_alias_declaration", true, none, 0, 1⟩ () [
        .node ⟨"type_identifier", true, some "name", 0, 1⟩ () [],
        .node ⟨"parenthesized_type", true, some "value", 0, 1⟩ () [deep]]]
    let world := World.ofParsed [("T".toUTF8, ⟨named, false⟩)]
      (Files.ofList [("a.ts", "T".toUTF8), ("b.ts", "".toUTF8)])
    let options :=
      { Options.standard with files := ["a.ts", "b.ts"], json := true, nodes := true }
    (∀ path ∈ options.files,
      (catalogueAlone? .standard world options Settings.standard path).isSome = true) ∧
    ∃ report, respond .standard world [] ["--json", "--nodes", "a.ts", "b.ts"] = .finished report ∧
      report.runs.map FileRun.path = ["a.ts"] ∧ report.uncaught = some .nestedTooDeeply ∧
      report.exitCode = 1 ∧ report.output = "" := by
  intro word deep named world options
  have hoptions : Options.ofArguments world.files.isFile ["--json", "--nodes", "a.ts", "b.ts"] =
      .ok options := by
    decide +kernel
  have hsettings : settingsOf Options.standard [] = .ok Settings.standard := by rfl
  exact ⟨by decide +kernel, _, respond_eq hoptions rfl hsettings, by decide +kernel⟩

end DeclCatalogue.CommandLine
