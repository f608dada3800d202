import DeclCatalogue.CommandLine.Run

/-!
# The program

The command as a program. Sources are not parsed here: beside a source `NAME` there has to be the
document `NAME.cst.json` with what a parser made of it, as `DeclCatalogue.Cst.Document` reads it.
This module reads files and the environment and prints; all else is `CommandLine.respond`. Texts
from outside are held as all texts are, and handed out as they were.
-/

namespace DeclCatalogue.CommandLine

/-- The bytes of a file, if it can be read. -/
def readFile? (path : String) : IO (Option ByteArray) := do
  try
    return some (← IO.FS.readBinFile (Text.released path))
  catch _ =>
    return none

/-- The files under the given paths; all other paths lead nowhere. -/
def loadFiles (paths : List String) : IO Files := do
  let loaded ← paths.mapM fun path => do return (path, ← readFile? path)
  return fun path => (loaded.find? fun f => f.1 = path).bind fun f => f.2.map FileEntry.file

/-- What a parser made of a source, from the document beside it. -/
def loadParsed? (path : String) : IO (Option ParsedSource) := do
  let some bytes ← readFile? (path ++ ".cst.json") | return none
  match String.fromUTF8? bytes with
  | none => return none
  | some text =>
    match Json.read (Text.held text) with
    | .ok v => return ParsedSource.ofJson? v
    | .error _ => return none

/-- The sources under the given paths with what a parser made of each. -/
def loadSources (paths : List String) : IO (List (ByteArray × ParsedSource)) := do
  let loaded ← paths.mapM fun path => do
    match ← readFile? path, ← loadParsed? path with
    | some bytes, some parsed => return some (bytes, parsed)
    | _, _ => return none
  return loaded.filterMap id

/-- The variables of the environment that set something. -/
def loadEnvironment : IO (List (String × String)) := do
  let names := Settings.keys.map fun key => (Settings.standardPrefix ++ key).toUpper
  let found ← names.mapM fun name => do
    return (← IO.getEnv name).map fun value => (name, Text.held value)
  return found.filterMap id

/-- The path of the kind table that the environment names, if it names one. -/
def kindTablePaths (environment : List (String × String)) : List String :=
  match settingsOf Options.standard environment with
  | .ok settings => settings.kindTablePath.toList
  | .error _ => []

end DeclCatalogue.CommandLine

open DeclCatalogue DeclCatalogue.CommandLine in
/-- Runs the command with the arguments of the process. -/
def main (arguments : List String) : IO UInt32 := do
  let environment ← loadEnvironment
  let arguments := arguments.map Text.held
  let paths := arguments ++ arguments.map Path.normalize
  let files ← loadFiles (paths ++ kindTablePaths environment)
  let world := World.ofParsed (← loadSources paths) files
  match respond Console.standard world environment arguments with
  | .usage fault =>
    IO.eprintln (Text.released ("Error: " ++ fault.message))
    return 2
  | .help text =>
    IO.print text
    return 0
  | .finished report =>
    IO.print (Text.released report.output)
    report.complaints.forM fun line => IO.eprintln (Text.released line)
    return UInt32.ofNat report.exitCode
