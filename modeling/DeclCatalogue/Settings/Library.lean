import DeclCatalogue.Settings.Layers

/-!
# Loading settings

Settings come from several sources, each a layer of fields: arguments, environment variables, a file
of variables and a JSON file, in this order. How a source is read into a layer, how layers are
joined and how values are checked is the matter of a library, which is given from outside;
`Library.load` uses it. `Library.standard` is the library that is used where none is given.
-/

namespace DeclCatalogue.Settings

/-- What settings are loaded with. -/
structure Library where
  /-- The check of the values that are given for a setting. -/
  check : (f : Field) → Json → Checked f.Value
  /-- The layer of the environment, by the prefix of its variables. -/
  environmentLayer : String → List (String × String) → Fields
  /-- What a file of variables sets in an environment. -/
  assignments : List (String × String) → String → Dotenv.Assignments
  /-- The names that the values of a file of variables refer to. -/
  references : String → List String
  /-- The layer of a file of variables, by the prefix of its variables. -/
  variableFileLayer : String → Dotenv.Assignments → Fields
  /-- The fields of a JSON file. -/
  jsonFileFields : String → Except Fault Fields
  /-- The layer of a JSON file. -/
  jsonFileLayer : Fields → Fields
  /-- Layers put together, those in front before those behind. -/
  join : List Fields → Fields
  /-- Settings from fields; the text is the name of the settings in reports. -/
  construct : String → Fields → Except Fault Settings

/-- Where settings come from. -/
structure Sources where
  arguments : Fields
  envPrefix : String
  environment : List (String × String)
  /-- The text of a file of variables. -/
  variableFile : Option String
  /-- The text of a JSON file. -/
  jsonFile : Option String

namespace Library

variable (library : Library)

/-- The variables of the file of variables. -/
def assigned (sources : Sources) : Dotenv.Assignments :=
  match sources.variableFile with
  | none => []
  | some text => library.assignments sources.environment text

/-- The fields of the JSON file. -/
def jsonFields (sources : Sources) : Except Fault Fields :=
  match sources.jsonFile with
  | none => .ok []
  | some text => library.jsonFileFields text

/-- The layers of all sources, the first to count first. -/
def layers (sources : Sources) : Except Fault (List Fields) :=
  (library.jsonFields sources).map fun fields =>
    [sources.arguments, library.environmentLayer sources.envPrefix sources.environment,
      library.variableFileLayer sources.envPrefix (library.assigned sources),
      library.jsonFileLayer fields]

/-- The settings that the sources give; `subject` is the name of the settings in reports. -/
def load (subject : String) (sources : Sources) : Except Fault Settings := do
  library.construct subject (library.join (← library.layers sources))

/-- The library that is used where none is given. -/
def standard : Library :=
  { check := Field.check
    environmentLayer := Settings.environmentLayer
    assignments := Dotenv.read
    references := Dotenv.references
    variableFileLayer := Settings.variableFileLayer
    jsonFileFields := Settings.jsonFileFields
    jsonFileLayer := withSettingNames
    join := Settings.join
    construct := fun subject fields =>
      ((ofFields fields).toExcept subject).mapError .invalid }

end Library

/-- The prefix of variables where none is given. -/
def standardPrefix : String := "TSCATALOG_"

/-- Settings from arguments and the environment alone. -/
def ofArguments (arguments : Fields) (environment : List (String × String)) :
    Except Fault Settings :=
  Library.standard.load "ExtractorSettings"
    { arguments := arguments
      envPrefix := standardPrefix
      environment := environment
      variableFile := none
      jsonFile := none }

/-- Settings from all sources. -/
def ofSources (sources : Sources) : Except Fault Settings :=
  Library.standard.load "Settings" sources

end DeclCatalogue.Settings
