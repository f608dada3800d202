import DeclCatalogue.Json.Reader
import DeclCatalogue.Settings.Basic
import DeclCatalogue.Settings.Dotenv
import DeclCatalogue.Text.LowerCase

/-!
# Layers of settings

What the sources of settings say, each as a layer of fields, and how layers are joined: of the
layers that set a field the first one counts.

Variables are found by their names with a prefix, in any case; the names in a JSON file in any case
without a prefix. Environment variables that are no settings do not matter, while fields of the
other layers have to be settings.
-/

namespace DeclCatalogue.Settings

/-! ## The layers -/

/-- The variable that sets a setting. -/
def variableName (envPrefix key : String) : String :=
  Text.lower (envPrefix ++ key)

/-- The value of the last variable with a name, in any case. -/
def lastVariable? (name : String) (assigned : Dotenv.Assignments) :
    Option (Option String) :=
  (assigned.reverse.find? fun v => Text.lower v.1 = name).map (·.2)

/-- The settings that variables set. -/
def fromVariables (envPrefix : String) (assigned : Dotenv.Assignments) : Fields :=
  keys.filterMap fun key =>
    match lastVariable? (variableName envPrefix key) assigned with
    | some (some value) => some (key, .str value)
    | _ => none

/-- The names of variables in lower case, each once. -/
def variableNames (assigned : Dotenv.Assignments) : List String :=
  (assigned.map fun v => Text.lower v.1).eraseDups

/-- The variables of a file that are no settings, under their names in lower case. Variables
without a value and variables named like a setting without its prefix do not count. -/
def strayVariables (envPrefix : String) (assigned : Dotenv.Assignments) : Fields :=
  (variableNames assigned).filterMap fun name =>
    if keys.contains name || (keys.map (variableName envPrefix)).contains name then none
    else
      match lastVariable? name assigned with
      | some (some value) => if value = "" then none else some (name, .str value)
      | _ => none

/-- The layer of the environment. -/
def environmentLayer (envPrefix : String) (environment : List (String × String)) : Fields :=
  fromVariables envPrefix (environment.map fun v => (v.1, some v.2))

/-- The layer of a file of variables. -/
def variableFileLayer (envPrefix : String) (assigned : Dotenv.Assignments) : Fields :=
  fromVariables envPrefix assigned ++ strayVariables envPrefix assigned

/-- The two values that an item of a list of pairs stands for, a key and what is under it. A list or
an object is no key. -/
def pairOf : Json → Except Fault (Json × Json)
  | .arr [key, value] => if key.isKey then .ok (key, value) else .error .unusableKey
  | .str s =>
    match Text.characters s.toList with
    | [a, b] => .ok (.str (String.ofList a), .str (String.ofList b))
    | _ => .error .unpaired
  | .obj [(a, _), (b, _)] => .ok (.str a, .str b)
  | .arr _ | .obj _ => .error .unpaired
  | _ => .error .notPairs

/-- A field from a key and its value; a key has to be a text to be a name. -/
def fieldOf : Json × Json → Except Fault (String × Json)
  | (.str name, value) => .ok (name, value)
  | _ => .error .nameNotText

/-- The fields that a JSON value sets: those of an object, or the pairs of a list. That all items
are pairs is looked at before their keys are taken for names. -/
def fieldsOf : Json → Except Fault Fields
  | .obj fields => .ok fields
  | .arr items => do
    let pairs ← items.mapM pairOf
    return Json.ofPairs (← pairs.mapM fieldOf)
  | .str s => if s = "" then .ok [] else .error .unpaired
  | _ => .error .notPairs

/-- Fields with the names of settings written as the settings are. Of fields that are the same
setting the first one counts. -/
def withSettingNames (fields : Fields) : Fields :=
  Json.firstOfEach (fields.map fun f =>
    let name := Text.lower f.1
    (if keys.contains name then name else f.1, f.2))

/-- The fault of a text that is not read as JSON. -/
def readFault : Json.ReadFault → Fault
  | .malformed => .malformedJson
  | .numeralTooLong => .badNumeral

/-- The fields that a JSON file sets. A file with nothing but white space sets none. -/
def jsonFileFields (text : String) : Except Fault Fields :=
  if text.toList.all Text.isBlank then .ok []
  else (Json.read text).mapError readFault >>= fieldsOf

/-! ## Joining layers -/

/-- A layer with the fields of the layers before it put in. -/
def overlay (earlier later : Fields) : Fields :=
  earlier.foldl (fun (fields : Fields) f => Json.setField f.1 f.2 fields) later

/-- The fields of all layers; of the layers that set a field the first one counts. -/
def join (layers : List Fields) : Fields :=
  layers.foldl overlay []

end DeclCatalogue.Settings
