import DeclCatalogue.Catalogue.Document
import DeclCatalogue.CommandLine.Console
import DeclCatalogue.CommandLine.Options
import DeclCatalogue.Extraction

/-!
# Running the command

The command extracts each of its files into a catalogue of its own and prints the catalogues, as a
summary of each or as one JSON document of all. A file that cannot be extracted is reported and
left out; the run goes on and ends with exit code one. A fault that is not about the file itself,
such as a kind table that is not there, ends the run early, and so does what was extracted from a
file if the console cannot print it.
-/

namespace DeclCatalogue

/-- Whether a fault of an extraction concerns a single file, so that a run goes on with the next. -/
def Fault.isContained : Fault → Bool
  | .unresolvableName _ | .noStatementList _ | .syntaxErrors _ | .invalid _ | .tableNotObject _
  | .kindNotANumber | .unpaired | .badNumeral | .notAMember | .malformedJson | .undecodable => true
  | .notAnObject | .nameNotText | .notIterable | .kindNotNumeric | .kindInfinite | .flagsNotInteger
  | .unusableKey | .notPairs | .missingFile | .isDirectory | .nestedTooDeeply
  | .unencodable => false

namespace CommandLine

/-- What a run comes to for a file, under its normalised path: what its extraction came to, and the
fault of printing what was extracted. -/
structure FileRun where
  path : String
  outcome : Outcome Unit
  refused? : Option Fault

namespace FileRun

/-- The catalogue of a file that was extracted. -/
def catalogue? (run : FileRun) : Option Catalogue :=
  match run.outcome.result with
  | .ok _ => some (Catalogue.empty.replay (Event.pushes run.outcome.events))
  | .error _ => none

/-- The catalogue of a file that was extracted and can be printed. -/
def printed? (run : FileRun) : Option Catalogue :=
  if run.refused?.isNone then run.catalogue? else none

/-- The fault of a file that was not extracted or cannot be printed. -/
def fault? (run : FileRun) : Option Fault :=
  match run.outcome.result with
  | .ok _ => run.refused?
  | .error fault => some fault

/-- The fault by which a file ends the run: one of printing, or one that is not contained in the
file. -/
def ending? (run : FileRun) : Option Fault :=
  match run.outcome.result with
  | .ok _ => run.refused?
  | .error fault => if fault.isContained then none else some fault

end FileRun

/-! ## Printing -/

/-- The line of a context: how many records each of its lists holds, empty lists left out. -/
def contextLine (context : Json) (bucket : Bucket) : String :=
  let counted := bucket.counts.filter fun c => c.2 ≠ 0
  "  [" ++ context.display ++ "] "
    ++ ", ".intercalate (counted.map fun c => c.1 ++ "=" ++ toString c.2)

/-- The line of an import. -/
def importLine (i : ImportRecord) : String :=
  "  import " ++ i.kind.text ++ " " ++ i.what ++ " from " ++ i.source

/-- The lines of a catalogue under the path of its file. -/
def summary (path : String) (catalogue : Catalogue) : List String :=
  [path ++ ":"] ++ (catalogue.buckets.map fun b => contextLine b.1 b.2)
    ++ (if catalogue.namespaces.isEmpty then []
      else ["  namespaces: " ++ ", ".intercalate (catalogue.namespaces.map Json.display)])
    ++ catalogue.imports.map importLine

/-- The text of a catalogue where summaries are printed. -/
def summaryText (path : String) (catalogue : Catalogue) : String :=
  "\n".intercalate (summary path catalogue)

/-- A text with an end of line. -/
def printed (text : String) : String :=
  text ++ "\n"

/-- The fault of printing the catalogue of a file: where documents are printed it has to become
one, and else its summary is written. -/
def printFault? (console : Console) (options : Options) (path : String) (catalogue : Catalogue) :
    Option Fault :=
  if options.json then console.documentFault? options.nodes catalogue
  else console.textFault? (printed (summaryText path catalogue))

/-- The summaries of the files that are printed. -/
def summaries (runs : List FileRun) : String :=
  String.join (runs.filterMap fun run => run.printed?.map fun catalogue =>
    printed (summaryText run.path catalogue))

/-- The catalogues of the files that were extracted, under their paths. -/
def document (withNodes : Bool) (runs : List FileRun) : Json :=
  .obj (Json.ofPairs (runs.filterMap fun run => run.catalogue?.map fun catalogue =>
    (run.path, catalogue.document withNodes)))

/-! ## Files -/

/-- Extracts a file, with tokens from a count on, and looks whether it can be printed. -/
def runFile (console : Console) (world : World) (options : Options) (settings : Settings)
    (drawn : Nat) (path : String) : FileRun :=
  let outcome := world.extractFile settings path options.module drawn
  let run : FileRun := ⟨Path.normalize path, outcome, none⟩
  { run with refused? := run.catalogue?.bind (printFault? console options run.path) }

/-- Extracts and prints files one after the other; tokens are counted over all of them. -/
def runFiles (console : Console) (world : World) (options : Options) (settings : Settings) :
    Nat → List String → List FileRun
  | _, [] => []
  | drawn, path :: rest =>
    let run := runFile console world options settings drawn path
    if run.ending?.isSome then [run]
    else run :: runFiles console world options settings run.outcome.drawn rest

/-! ## The command -/

/-- What a run of the command over its files comes to. -/
structure RunReport where
  runs : List FileRun
  output : String
  /-- The fault that ended the run early, if one did. -/
  uncaught : Option Fault

namespace RunReport

/-- The exit code: zero if every file was extracted. -/
def exitCode (report : RunReport) : Nat :=
  if report.uncaught.isNone && report.runs.all fun run => run.fault?.isNone then 0 else 1

/-- All events of the run. -/
def events (report : RunReport) : List Event :=
  report.runs.flatMap fun run => run.outcome.events

/-- What is said of a fault. -/
def complaint (fault : Fault) : String :=
  fault.message?.getD "extraction failed"

/-- What is said of the files that were not extracted, or else of the fault that came before any of
them. -/
def complaints (report : RunReport) : List String :=
  if report.runs.isEmpty then report.uncaught.toList.map complaint
  else report.runs.filterMap fun run =>
    run.fault?.map fun fault => run.path ++ ": " ++ complaint fault

end RunReport

/-- What a use of the command comes to. -/
inductive Response where
  | usage (fault : UsageError)
  | help (text : String)
  | finished (report : RunReport)

/-- Runs over the files of the options. The document of all files is printed when they have all
been run, so that an early end leaves it unprinted. -/
def runOptions (console : Console) (world : World) (options : Options) (settings : Settings) :
    RunReport :=
  let runs := runFiles console world options settings 0 options.files
  match runs.findSome? FileRun.ending? with
  | some fault => ⟨runs, if options.json then "" else summaries runs, some fault⟩
  | none =>
    if options.json then
      let text := printed ((document options.nodes runs).indented 2)
      match console.textFault? text with
      | some fault => ⟨runs, "", some fault⟩
      | none => ⟨runs, text, none⟩
    else ⟨runs, summaries runs, none⟩

/-- The settings of a run: the grammar comes from the options, all else from the environment. -/
def settingsOf (options : Options) (environment : List (String × String)) :
    Except Fault Settings :=
  Settings.ofSources
    { arguments := [("tsx", .bool options.tsx)]
      envPrefix := Settings.standardPrefix
      environment := environment
      variableFile := none
      jsonFile := none }

/-- Uses the command with arguments in an environment. -/
def respond (console : Console) (world : World) (environment : List (String × String))
    (arguments : List String) : Response :=
  match Options.ofArguments world.files.isFile arguments with
  | .error fault => .usage fault
  | .ok options =>
    if options.help then .help helpText
    else
      match settingsOf options environment with
      | .error fault => .finished ⟨[], "", some fault⟩
      | .ok settings => .finished (runOptions console world options settings)

end CommandLine

end DeclCatalogue
