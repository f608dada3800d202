import DeclCatalogue.Proofs.CommandLine.Isolation
import DeclCatalogue.Proofs.Extraction.Grammar
import DeclCatalogue.Proofs.Settings.Environment

/-!
# What configures the command

The command has settings from the environment, as the library has where it is given no arguments,
but for the grammar: whether the option for it is given or not, the options say which grammar it is,
and what the options say comes before the environment (`settingsOf_eq_ok`). Where the option is not
given they say that it is the plain one (`Options.read_tsx`).

So the command does not heed the variables for the grammar. `respond_configured` says that this is
the only difference: a use of the command without the option extracts each of its files as the
library does in an environment without these variables.
-/

namespace DeclCatalogue.CommandLine

open Settings (Field ofEnvironment environmentValue? withoutVariable outcomeFrom)

/-! ## Options that are given -/

/-- The names of the options among arguments. The value of `--module` is no option, whatever it
looks like, and neither is what stands behind two dashes alone. -/
def optionNames : List String → List String
  | [] => []
  | argument :: rest =>
    if argument = "--" then []
    else if !isOption argument then optionNames rest
    else
      let parts := splitValue argument
      if parts.1 = "--module" then
        match parts.2, rest with
        | some _, rest => parts.1 :: optionNames rest
        | none, _ :: rest => parts.1 :: optionNames rest
        | none, [] => [parts.1]
      else parts.1 :: optionNames rest

theorem Options.set?_tsx {options set : Options} {name : String} (h : options.set? name = some set)
    (hname : name ≠ "--tsx") (htsx : options.tsx = false) : set.tsx = false := by
  unfold Options.set? at h
  split at h
  next => exact absurd rfl hname
  all_goals cases h
  all_goals first | exact htsx | rfl

theorem Options.setArgument_tsx {options set : Options} {argument : String}
    (h : options.setArgument argument = .ok set) (hname : (splitValue argument).1 ≠ "--tsx")
    (htsx : options.tsx = false) : set.tsx = false := by
  unfold Options.setArgument at h
  dsimp only at h
  split at h
  next found hfound =>
    split at h
    · cases h
    · obtain rfl := Except.ok.inj h
      exact Options.set?_tsx hfound hname htsx
  next =>
    split at h
    · cases h
    · unfold Options.setLetters at h
      split at h
      · cases h
      · obtain rfl := Except.ok.inj h
        exact htsx

/-- **Only the option for the grammar asks for it.** -/
theorem Options.read_tsx {options read : Options} {arguments : List String}
    (h : options.read arguments = .ok read) (hnames : "--tsx" ∉ optionNames arguments)
    (htsx : options.tsx = false) : read.tsx = false := by
  -- the names go by the same cases as the reading, so every option that is read is one of them
  fun_induction Options.read options arguments with
  | case1 options =>
    obtain rfl := Except.ok.inj h
    exact htsx
  | case2 options rest =>
    obtain rfl := Except.ok.inj h
    exact htsx
  | case3 options argument rest hdashes hplain ih =>
    rw [optionNames, if_neg hdashes, if_pos hplain] at hnames
    exact ih h hnames htsx
  | case4 options argument hdashes hoption parts hmodule value rest hvalue ih =>
    rw [optionNames, if_neg hdashes, if_neg hoption, if_pos hmodule] at hnames
    simp only [show (splitValue argument).2 = some value from hvalue] at hnames
    exact ih h (mt (List.mem_cons_of_mem _) hnames) htsx
  | case5 options argument hdashes hoption parts hmodule value rest hvalue ih =>
    rw [optionNames, if_neg hdashes, if_neg hoption, if_pos hmodule] at hnames
    simp only [show (splitValue argument).2 = none from hvalue] at hnames
    exact ih h (mt (List.mem_cons_of_mem _) hnames) htsx
  | case6 => cases h
  | case7 options argument rest hdashes hoption parts hother set hset ih =>
    rw [optionNames, if_neg hdashes, if_neg hoption, if_neg hother] at hnames
    obtain ⟨hname, hrest⟩ := not_or.mp (mt List.mem_cons.mpr hnames)
    exact ih h hrest (Options.setArgument_tsx hset (Ne.symm hname) htsx)
  | case8 => cases h

/-! ## Settings of a use -/

section

variable {options : Options} {environment : List (String × String)} {settings : Settings}

theorem namesSettingsOnce_tsx (tsx : Bool) : Settings.NamesSettingsOnce [("tsx", .bool tsx)] where
  once := List.nodup_singleton _
  known := List.forall_mem_singleton.mpr Field.tsx.key_mem

/-- What the options say of the grammar holds. -/
theorem outcomeFrom_tsx (tsx : Bool) (environment : List (String × String)) :
    outcomeFrom [("tsx", .bool tsx)] environment .tsx = .valid tsx := rfl

/-- Of all else the environment decides. -/
theorem outcomeFrom_other (tsx : Bool) (environment : List (String × String)) {f : Field}
    (h : f ≠ .tsx) :
    outcomeFrom [("tsx", .bool tsx)] environment f =
      f.outcome (environmentValue? environment f) := by
  cases f with
  | tsx => exact absurd rfl h
  | _ => rfl

/-- **The options decide on the grammar, and the environment on all other settings.** -/
theorem settingsOf_eq_ok :
    settingsOf options environment = .ok settings ↔
      settings.tsx = options.tsx ∧ ∀ f : Field, f ≠ .tsx →
        f.outcome (environmentValue? environment f) = .valid (f.get settings) := by
  have hload : settingsOf options environment = .ok settings ↔
      ∀ f : Field, outcomeFrom [("tsx", .bool options.tsx)] environment f =
        .valid (f.get settings) :=
    Settings.ofSources_withoutFiles_eq_ok (namesSettingsOnce_tsx options.tsx)
  rw [hload]
  constructor
  · intro h
    refine ⟨(Checked.valid.inj (h .tsx)).symm, fun f hf => ?_⟩
    rw [← outcomeFrom_other options.tsx environment hf, h f]
  · rintro ⟨htsx, hothers⟩ f
    by_cases hf : f = .tsx
    · rw [hf, outcomeFrom_tsx, ← htsx]
      rfl
    · rw [outcomeFrom_other _ _ hf, hothers f hf]

/-- Options that ask for nothing are like an environment that does not, also in the faults. -/
theorem settingsOf_eq_ofEnvironment (options : Options) (htsx : options.tsx = false) :
    settingsOf options environment = ofEnvironment (withoutVariable .tsx environment) := by
  refine Settings.ofSources_withoutFiles_congr (namesSettingsOnce_tsx options.tsx)
    Settings.namesSettingsOnce_nil fun f => ?_
  have hplain : outcomeFrom [] (withoutVariable .tsx environment) f =
      f.outcome (if f = .tsx then none else environmentValue? environment f) := by
    rw [← Settings.environmentValue?_withoutVariable]
    rfl
  rw [hplain]
  by_cases hf : f = .tsx
  · rw [hf, outcomeFrom_tsx, htsx, if_pos rfl]
    rfl
  · rw [outcomeFrom_other _ _ hf, if_neg hf]

/-- Settings of the environment, without its variables for the grammar. -/
theorem ofEnvironment_withoutVariable (h : ofEnvironment environment = .ok settings) :
    ofEnvironment (withoutVariable .tsx environment) = .ok { settings with tsx := false } := by
  rw [← settingsOf_eq_ofEnvironment Options.standard rfl, settingsOf_eq_ok]
  refine ⟨rfl, fun f hf => ?_⟩
  have hvalue := Settings.ofEnvironment_eq_ok.mp h f
  cases f with
  | tsx => exact absurd rfl hf
  | _ => exact hvalue

end

/-! ## Files of a use -/

/-- A run that extracts its files, one after the other, as the library does with some settings. The
number of tokens that were drawn before shows in placeholders only (`extractFile_renumbers`). -/
structure RunReport.ExtractsEach (world : World) (settings : Settings) (options : Options)
    (report : RunReport) : Prop where
  /-- The files that are run are extracted, in order. -/
  files : List.Forall₂ (fun path run => run.path = Path.normalize path ∧
      ∃ before, run.outcome = world.extractFile settings path options.module before)
    (options.files.take report.runs.length) report.runs
  /-- These are all files, unless one of them ends the run, by a fault that is not about the file
  alone or of printing what was extracted. -/
  complete : report.runs.length = options.files.length ∨
    ∃ fault, report.uncaught = some fault ∧ ∃ run ∈ report.runs, run.ending? = some fault

/-- The files that are run come first, and others are left only behind one that ends the run. -/
theorem runFiles_take (console : Console) (world : World) (options : Options)
    (settings : Settings) (drawn : Nat) (files : List String) :
    let runs := runFiles console world options settings drawn files
    List.Forall₂ (fun path run => ∃ before,
        run = runFile console world options settings before path)
        (files.take runs.length) runs ∧
      (runs.length = files.length ∨ ∃ run ∈ runs, run.ending?.isSome = true) := by
  induction files generalizing drawn with
  | nil => exact ⟨.nil, .inl rfl⟩
  | cons path rest ih =>
    rw [runFiles]
    dsimp only
    split
    next hends => exact ⟨.cons ⟨drawn, rfl⟩ .nil, .inr ⟨_, List.mem_singleton_self _, hends⟩⟩
    next =>
      obtain ⟨hfiles, hend⟩ :=
        ih (runFile console world options settings drawn path).outcome.drawn
      refine ⟨.cons ⟨drawn, rfl⟩ hfiles, hend.imp (congrArg (· + 1)) ?_⟩
      rintro ⟨run, hrun, hends⟩
      exact ⟨run, List.mem_cons_of_mem _ hrun, hends⟩

theorem runOptions_extractsEach (console : Console) (world : World) (options : Options)
    (settings : Settings) :
    (runOptions console world options settings).ExtractsEach world settings options := by
  obtain ⟨hfiles, hend⟩ := runFiles_take console world options settings 0 options.files
  constructor
  · rw [runs_runOptions]
    refine hfiles.imp fun path run => ?_
    rintro ⟨before, rfl⟩
    exact ⟨rfl, before, rfl⟩
  · rw [runs_runOptions]
    refine hend.imp_right ?_
    rintro ⟨run, hrun, hends⟩
    -- of the files that end the run, the first one does
    obtain ⟨fault, hfound⟩ := Option.isSome_iff_exists.mp
      (List.findSome?_isSome_iff.mpr ⟨run, hrun, hends⟩)
    rw [runOptions_ended hfound]
    exact ⟨fault, rfl, List.exists_of_findSome?_eq_some hfound⟩

/-- **The command does not heed the variables for the grammar, and else does what the library
does.** Let the command be used in any environment, without asking for help and without the option
`--tsx`, with any arguments that it accepts. Then it extracts the files as the library does in the
environment without these variables, with the same fault if the settings are invalid there. All
other settings have the values that the environment gives them.

So where the settings of the whole environment are valid, a file is extracted as the library does
with them if they do not ask for the other grammar, or if the ending of its name chooses it anyway;
any other file that is there is parsed with the plain grammar and not with the one asked for. -/
theorem respond_configured (console : Console) (world : World)
    (environment : List (String × String)) (arguments : List String) {options : Options}
    (hoptions : Options.ofArguments world.files.isFile arguments = .ok options)
    (hhelp : options.help = false) (hnames : "--tsx" ∉ optionNames arguments) :
    let unheeded := withoutVariable .tsx environment
    (∀ settings, ofEnvironment unheeded = .ok settings → ∃ report,
      respond console world environment arguments = .finished report ∧
        report.ExtractsEach world settings options) ∧
    (∀ fault, ofEnvironment unheeded = .error fault →
      respond console world environment arguments = .finished ⟨[], "", some fault⟩) ∧
    (∀ settings, ofEnvironment unheeded = .ok settings ↔ settings.tsx = false ∧
      ∀ f : Field, f ≠ .tsx →
        f.outcome (environmentValue? environment f) = .valid (f.get settings)) ∧
    ∀ settings, ofEnvironment environment = .ok settings →
      ofEnvironment unheeded = .ok { settings with tsx := false } ∧
      ∀ path module before,
        let asked := world.extractFile settings path module before
        let made := world.extractFile { settings with tsx := false } path module before
        (settings.tsx = false ∨ Path.suffix (Path.normalize path) = ".tsx" → made = asked) ∧
        (settings.tsx = true → Path.suffix (Path.normalize path) ≠ ".tsx" →
          world.files.isFile (Path.normalize path) = true →
            Event.grammars made.events = [.plain] ∧ Event.grammars asked.events = [.withJsx]) := by
  intro unheeded
  have htsx : options.tsx = false :=
    Options.read_tsx (read_of_ofArguments hoptions).1 hnames rfl
  have hsettings : settingsOf options environment = ofEnvironment unheeded :=
    settingsOf_eq_ofEnvironment options htsx
  refine ⟨fun settings h => ?_, fun fault h => ?_, fun settings => ?_, fun settings h => ?_⟩
  · exact ⟨_, respond_eq hoptions hhelp (hsettings.trans h), runOptions_extractsEach ..⟩
  · unfold respond
    rw [hoptions]
    dsimp only
    rw [if_neg (by simp [hhelp]), hsettings, h]
  · rw [← hsettings, settingsOf_eq_ok, htsx]
  · refine ⟨ofEnvironment_withoutVariable h, fun path module before => ⟨fun hsame => ?_, ?_⟩⟩
    · rcases hsame with hplain | hending
      · rw [← hplain]
      · exact congrFun (world.extractFile_ending settings hending false) before
    · intro hchosen hending hfile
      rw [World.extractFile_grammars, World.extractFile_grammars, if_pos hfile, if_pos hfile]
      unfold World.endingChoice Settings.grammar
      rw [if_neg hending]
      simp [hchosen]

/-- Two files in an environment that asks for the other grammar, and for a name of the root context.
The name is heeded, but only the ending of the second file chooses its grammar. -/
theorem respond_configured_twoFiles :
    let world := World.ofParsed [] (Files.ofList
      [("a.ts", "class C {}".toUTF8), ("b.tsx", "class D {}".toUTF8)])
    let environment := [("TSCATALOG_TSX", "1"), ("TSCATALOG_ROOT_CONTEXT", "top")]
    let arguments := ["a.ts", "b.tsx"]
    let options := { Options.standard with files := arguments }
    Options.ofArguments world.files.isFile arguments = .ok options ∧ options.help = false ∧
    "--tsx" ∉ optionNames arguments ∧
    ∃ report, respond .standard world environment arguments = .finished report ∧
      report.ExtractsEach world { Settings.standard with rootContext := "top" } options ∧
      Event.grammars report.events = [.plain, .withJsx] := by
  intro world environment arguments options
  have hoptions : Options.ofArguments world.files.isFile arguments = .ok options := by
    decide +kernel
  have hnames : "--tsx" ∉ optionNames arguments := by decide +kernel
  obtain ⟨hruns, -, -, -⟩ :=
    respond_configured .standard world environment arguments hoptions rfl hnames
  have hlowered : Settings.lowered environment =
      [("tscatalog_tsx", "1"), ("tscatalog_root_context", "top")] := by
    decide +kernel
  have hunheeded : ofEnvironment (withoutVariable .tsx environment) =
      .ok { Settings.standard with rootContext := "top" } := by
    refine Settings.ofEnvironment_eq_ok.mpr fun f => ?_
    rw [Settings.environmentValue?_withoutVariable]
    unfold environmentValue?
    rw [hlowered]
    cases f <;> rfl
  obtain ⟨report, hreport, hextracts⟩ := hruns _ hunheeded
  have hsettings := (settingsOf_eq_ofEnvironment options rfl).trans hunheeded
  have hsame := hreport.symm.trans (respond_eq hoptions rfl hsettings)
  rw [Response.finished.inj hsame] at hreport hextracts
  exact ⟨hoptions, rfl, hnames, _, hreport, hextracts, by decide +kernel⟩

/-- **A variable that asks for the other grammar is not heeded:** in one and the same environment
the library parses a file with that grammar and the command with the plain one. -/
theorem respond_plain :
    let world := World.ofParsed [] (Files.ofList [("a.ts", "class C {}".toUTF8)])
    let environment := [("TSCATALOG_TSX", "1")]
    let arguments := ["a.ts"]
    let settings := { Settings.standard with tsx := true }
    "--tsx" ∉ optionNames arguments ∧ "--no-tsx" ∉ optionNames arguments ∧
    ofEnvironment environment = .ok settings ∧
    ∃ report run, respond .standard world environment arguments = .finished report ∧
      report.runs = [run] ∧
      Event.grammars run.outcome.events = [.plain] ∧
      ∀ before, Event.grammars (world.extractFile settings "a.ts" none before).events = [.withJsx] ∧
        run.outcome ≠ world.extractFile settings "a.ts" none before := by
  intro world environment arguments settings
  have hoptions : Options.ofArguments world.files.isFile arguments =
      .ok { Options.standard with files := arguments } := by
    decide +kernel
  have hlowered : Settings.lowered environment = [("tscatalog_tsx", "1")] := by decide +kernel
  have hflag : Checked.flag (.str "1") = .valid true := by
    have hformed : Text.isWellFormed "1" = true := by decide +kernel
    have hword : Checked.flagOfWord? "1" = some true := by decide +kernel
    simp [Checked.flag, hformed, hword]
  have hlibrary : ofEnvironment environment = .ok settings := by
    refine Settings.ofEnvironment_eq_ok.mpr fun f => ?_
    unfold environmentValue?
    rw [hlowered]
    cases f with
    | tsx => exact hflag
    | _ => rfl
  have hcommand : settingsOf Options.standard environment = .ok Settings.standard :=
    (settingsOf_eq_ofEnvironment Options.standard rfl).trans
      (ofEnvironment_withoutVariable hlibrary)
  have hfile : world.files.isFile (Path.normalize "a.ts") = true := by decide +kernel
  have hending : World.endingChoice "a.ts" = none := by decide +kernel
  have hgrammars : ∀ (s : Settings) (before : Nat),
      Event.grammars (world.extractFile s "a.ts" none before).events = [s.grammar none] := by
    intro s before
    rw [World.extractFile_grammars, if_pos hfile, hending]
  have hplain : Event.grammars (runFile .standard world Options.standard Settings.standard 0
      "a.ts").outcome.events = [.plain] :=
    hgrammars Settings.standard 0
  refine ⟨by decide +kernel, by decide +kernel, hlibrary, _, _,
    respond_eq_runAlone hoptions rfl hcommand, runs_runAlone, hplain,
    fun before => ⟨hgrammars settings before, fun hsame => ?_⟩⟩
  rw [hsame, hgrammars settings before] at hplain
  cases hplain

end DeclCatalogue.CommandLine
