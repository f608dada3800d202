import DeclCatalogue.Fault
import DeclCatalogue.Settings.Numeral
import DeclCatalogue.Walk.Collect

/-!
# Settings

What an extraction can be told: the names of contexts and placeholders, the flags that mark a
namespace, a file with the names of kinds, the grammar, and whether sources with syntax errors are
refused. Settings are read from an object; fields that are not there have defaults, and a field
that is no setting is an issue.
-/

namespace DeclCatalogue

/-- The settings of an extraction. -/
structure Settings where
  rootContext : String
  namespacePrefix : String
  placeholderPrefix : String
  namespaceFlags : Int
  kindTablePath : Option String
  tsx : Bool
  strict : Bool
  deriving DecidableEq, Repr

namespace Settings

/-- The settings that hold where nothing else is said. -/
def standard : Settings :=
  { rootContext := "root"
    namespacePrefix := "npm$namespace$"
    placeholderPrefix := "npm$import$"
    namespaceFlags := NodeFlag.namespaceModule.bit + NodeFlag.nestedNamespace.bit
    kindTablePath := none
    tsx := false
    strict := false }

/-- The names of the settings, in order. -/
def keys : List String :=
  ["root_context", "namespace_context_prefix", "import_placeholder_prefix", "namespace_flags",
   "kind_table_path", "tsx", "strict"]

/-! ## Single settings -/

/-- A setting. -/
inductive Field where
  | rootContext | namespacePrefix | placeholderPrefix | namespaceFlags | kindTablePath
  | tsx | strict
  deriving DecidableEq, Repr

namespace Field

/-- The name of a setting. -/
def key : Field → String
  | .rootContext => "root_context"
  | .namespacePrefix => "namespace_context_prefix"
  | .placeholderPrefix => "import_placeholder_prefix"
  | .namespaceFlags => "namespace_flags"
  | .kindTablePath => "kind_table_path"
  | .tsx => "tsx"
  | .strict => "strict"

/-- What a setting is once it is checked. -/
abbrev Value : Field → Type
  | .rootContext | .namespacePrefix | .placeholderPrefix => String
  | .namespaceFlags => Int
  | .kindTablePath => Option String
  | .tsx | .strict => Bool

/-- The check of the values that are given for a setting. -/
def check : (f : Field) → Json → Checked f.Value
  | .rootContext | .namespacePrefix | .placeholderPrefix => Checked.text
  | .namespaceFlags => Checked.integer
  | .kindTablePath => Checked.optional Checked.text
  | .tsx | .strict => Checked.flag

/-- A setting among all of them. -/
def get : (f : Field) → Settings → f.Value
  | .rootContext, s => s.rootContext
  | .namespacePrefix, s => s.namespacePrefix
  | .placeholderPrefix, s => s.placeholderPrefix
  | .namespaceFlags, s => s.namespaceFlags
  | .kindTablePath, s => s.kindTablePath
  | .tsx, s => s.tsx
  | .strict, s => s.strict

/-- What becomes of a setting, by the value that is given for it. -/
def outcome (f : Field) : Option Json → Checked f.Value
  | some v => f.check v
  | none => .valid (f.get standard)

end Field

/-- Settings from what is read for each of them. -/
def assemble (read : (f : Field) → Checked f.Value) : Checked Settings :=
  Settings.mk <$> read .rootContext <*> read .namespacePrefix <*> read .placeholderPrefix
    <*> read .namespaceFlags <*> read .kindTablePath <*> read .tsx <*> read .strict

/-! ## Reading settings -/

/-- The settings among the fields of an object. -/
def known (fields : Fields) : Checked Settings :=
  assemble fun f => Checked.withDefault fields f.key (f.get standard) f.check

/-- The issues of the fields that are no settings. -/
def unknownIssues (fields : Fields) : List Issue :=
  (fields.filter fun f => !keys.contains f.1).map fun f => ⟨[f.1], .unknownField⟩

/-- Refuses fields that are no settings. -/
def onlyKnown (fields : Fields) : Checked Unit :=
  if (unknownIssues fields).isEmpty then .valid () else .invalid (unknownIssues fields)

/-- Reads settings from the fields of an object. Unknown fields are reported last. A field whose
name is no text cannot be reported, so that nothing else is either. -/
def ofFields (fields : Fields) : Checked Settings :=
  if fields.all fun f => Text.isWellFormed f.1 then
    (fun settings _ => settings) <$> known fields <*> onlyKnown fields
  else .invalid [⟨[], .notUnicode⟩]

/-- Settings as a JSON object. -/
def toJson (s : Settings) : Json :=
  .obj [("root_context", .str s.rootContext), ("namespace_context_prefix", .str s.namespacePrefix),
    ("import_placeholder_prefix", .str s.placeholderPrefix),
    ("namespace_flags", .int s.namespaceFlags),
    ("kind_table_path", Json.ofText? s.kindTablePath), ("tsx", .bool s.tsx),
    ("strict", .bool s.strict)]

/-- The walker that goes by the settings, by a table of kinds and by a source of tokens. -/
def walker (s : Settings) (kinds : KindTable) (tokens : Tokens) : Walker :=
  { rootContext := s.rootContext
    namespacePrefix := s.namespacePrefix
    placeholderPrefix := s.placeholderPrefix
    namespaceFlags := s.namespaceFlags
    kinds := kinds
    tokens := tokens }

end Settings

end DeclCatalogue
