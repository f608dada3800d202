import DeclCatalogue.Text.Surrogate

/-!
# Options of the command line

The arguments of the command are files and options, in any order. An option is written in full;
the value of `--module` is the next argument or stands behind an equals sign. Two dashes alone end
the options, and of options that exclude each other, or are repeated, the last one counts.
-/

namespace DeclCatalogue.CommandLine

/-- What the command is told. -/
structure Options where
  files : List String
  module : Option String
  tsx : Bool
  json : Bool
  nodes : Bool
  debug : Bool
  help : Bool
  deriving DecidableEq, Repr

/-- The options that hold where nothing else is said. -/
def Options.standard : Options :=
  { files := []
    module := none
    tsx := false
    json := false
    nodes := false
    debug := false
    help := false }

/-- Why arguments are refused. -/
inductive UsageError where
  | noSuchOption (option : String)
  | unexpectedValue (option : String)
  | missingValue (option : String)
  | missingFiles
  | noFile (path : String)
  deriving DecidableEq, Repr

/-- The wording of a usage error. -/
def UsageError.message : UsageError → String
  | .noSuchOption option => "No such option: " ++ option
  | .unexpectedValue option => "Option '" ++ option ++ "' does not take a value."
  | .missingValue option => "Option '" ++ option ++ "' requires an argument."
  | .missingFiles => "Missing argument 'FILES...'."
  | .noFile path => "Invalid value for 'FILES...': '" ++ path ++ "' is not a readable file."

/-- The options after one that takes no value; none if the name is not one of these. -/
def Options.set? (options : Options) (name : String) : Option Options :=
  match name with
  | "--tsx" => some { options with tsx := true }
  | "--no-tsx" => some { options with tsx := false }
  | "--json" => some { options with json := true }
  | "--nodes" => some { options with nodes := true }
  | "--no-nodes" => some { options with nodes := false }
  | "--debug" => some { options with debug := true }
  | "--no-debug" => some { options with debug := false }
  | "--help" => some { options with help := true }
  | _ => none

/-- The options after single-letter options behind one dash, of which there is only the one for
help. -/
def Options.setLetters (options : Options) (letters : List Char) : Except UsageError Options :=
  match (Text.characters letters).find? (· ≠ ['h']) with
  | some held => .error (.noSuchOption (String.ofList ('-' :: held)))
  | none => .ok { options with help := true }

/-- An argument split at its first equals sign, if it has one. -/
def splitValue (argument : String) : String × Option String :=
  let cs := argument.toList
  let name := cs.takeWhile (· ≠ '=')
  if name.length = cs.length then (argument, none)
  else (String.ofList name, some (String.ofList (cs.drop (name.length + 1))))

/-- The options after an argument that starts with a dash and is no `--module`. -/
def Options.setArgument (options : Options) (argument : String) : Except UsageError Options :=
  let parts := splitValue argument
  match options.set? parts.1 with
  | some set =>
    if parts.2.isSome then .error (.unexpectedValue parts.1) else .ok set
  | none =>
    match argument.toList with
    | '-' :: '-' :: _ => .error (.noSuchOption parts.1)
    | cs => options.setLetters (cs.drop 1)

/-- Whether an argument is an option: a dash with something behind it. -/
def isOption (argument : String) : Bool :=
  match argument.toList with
  | '-' :: _ :: _ => true
  | _ => false

/-- The options after a list of arguments. -/
def Options.read (options : Options) : List String → Except UsageError Options
  | [] => .ok options
  | argument :: rest =>
    if argument = "--" then .ok { options with files := options.files ++ rest }
    else if !isOption argument then
      Options.read { options with files := options.files ++ [argument] } rest
    else
      let parts := splitValue argument
      if parts.1 = "--module" then
        match parts.2, rest with
        | some value, rest => Options.read { options with module := some value } rest
        | none, value :: rest => Options.read { options with module := some value } rest
        | none, [] => .error (.missingValue parts.1)
      else
        match options.setArgument argument with
        | .ok set => Options.read set rest
        | .error fault => .error fault

/-- Reads the arguments of the command. Unless help is asked for, there has to be a file, and each
has to be found. -/
def Options.ofArguments (isFile : String → Bool) (arguments : List String) :
    Except UsageError Options := do
  let options ← Options.standard.read arguments
  if options.help then return options
  else if options.files.isEmpty then throw .missingFiles
  else
    match options.files.find? fun path => !isFile path with
    | some path => throw (.noFile path)
    | none => return options

/-- What the command says about itself. -/
def helpText : String :=
  "Usage: main [OPTIONS] FILES...\n\n" ++
  "  Extract the declaration catalogue of TypeScript source files.\n\n" ++
  "Options:\n" ++
  "  --module TEXT         Context of top-level declarations (default: the\n" ++
  "                        configured root context).\n" ++
  "  --tsx / --no-tsx      Parse with the TSX grammar.\n" ++
  "  --json                Print the catalogue of each file as JSON.\n" ++
  "  --nodes / --no-nodes  Include stripped syntax nodes in JSON output.\n" ++
  "  --debug / --no-debug  Enable debug logging.\n" ++
  "  -h, --help            Show this message and exit.\n"

end DeclCatalogue.CommandLine
