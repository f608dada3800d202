import DeclCatalogue.Validation

/-!
# Records

What a catalogue holds: declarations with the node they were made from, variables with the name of
their type, imports and exports. Names in records are never empty.

Each record can be read from a JSON object (`ofJson`) and written as one (`toJson`), and `make`
builds one from values that come out of a tree and need not be texts. Reading and making report
every field that does not fit.
-/

namespace DeclCatalogue

/-! ## Kinds of records -/

/-- What a declaration declares. -/
inductive DeclarationKind where
  | function | interface | type | «class» | «variable»
  deriving DecidableEq, Repr

namespace DeclarationKind

/-- All kinds of declaration. -/
def all : List DeclarationKind := [.function, .interface, .type, .class, .variable]

/-- The text of a kind in documents. -/
def text : DeclarationKind → String
  | .function => "function"
  | .interface => "interface"
  | .type => "type"
  | .class => "class"
  | .variable => "variable"

/-- The kind that a text names. -/
def ofText? (s : String) : Option DeclarationKind :=
  all.find? fun k => k.text = s

theorem ofText?_text (k : DeclarationKind) : ofText? k.text = some k := by
  cases k <;> rfl

end DeclarationKind

/-- How a name is imported: as the default or the whole of a module, or by its own name. -/
inductive ImportKind where
  | default | explicit
  deriving DecidableEq, Repr

namespace ImportKind

/-- All kinds of import. -/
def all : List ImportKind := [.default, .explicit]

/-- The text of a kind in documents. -/
def text : ImportKind → String
  | .default => "default"
  | .explicit => "explicit"

/-- The kind that a text names. -/
def ofText? (s : String) : Option ImportKind :=
  all.find? fun k => k.text = s

theorem ofText?_text (k : ImportKind) : ofText? k.text = some k := by
  cases k <;> rfl

end ImportKind

open Checked

/-! ## Declarations -/

/-- A function, interface, type alias or class, with the stripped node it was made from. -/
structure Declaration where
  context : String
  kind : DeclarationKind
  name : Name
  exported : Bool
  node : Fields
  deriving DecidableEq, Repr

namespace Declaration

/-- The name of this record in reports. -/
def subject : String := "Declaration"

/-- Reads a declaration from the fields of an object. -/
def ofFields (fields : Fields) : Checked Declaration :=
  Declaration.mk <$> required fields "context" Checked.text
    <*> required fields "kind" (member DeclarationKind.ofText?)
    <*> required fields "name" Checked.name
    <*> withDefault fields "exported" false flag
    <*> withDefault fields "node" [] object

/-- Reads a declaration. -/
def ofJson : Json → Checked Declaration := record ofFields

/-- A declaration from the context, name and node that a tree gives. -/
def make (context : Json) (kind : DeclarationKind) (name : Json) (exported : Bool)
    (node : Fields) : Checked Declaration :=
  (fun context name => ⟨context, kind, name, exported, node⟩)
    <$> (Checked.text context).under "context" <*> (Checked.name name).under "name"

/-- The fields of a declaration, with or without its node. -/
def toFields (withNode : Bool) (d : Declaration) : Fields :=
  [("context", .str d.context), ("kind", .str d.kind.text), ("name", .str d.name),
   ("exported", .bool d.exported)] ++ if withNode then [("node", .obj d.node)] else []

/-- A declaration as a JSON object, with or without its node. -/
def toJson (withNode : Bool) (d : Declaration) : Json :=
  .obj (d.toFields withNode)

end Declaration

/-! ## Variables -/

/-- A variable with the name of its type. A plain type name is looked for in `context`, a qualified
one in `valueContext`. -/
structure VariableRecord where
  context : Option String
  name : Name
  value : Name
  valueContext : Option String
  deriving DecidableEq, Repr

namespace VariableRecord

/-- The name of this record in reports. -/
def subject : String := "VariableDeclaration"

/-- What a variable is among the kinds of declaration. -/
def kind (_ : VariableRecord) : DeclarationKind := .variable

/-- Reads a variable from the fields of an object. -/
def ofFields (fields : Fields) : Checked VariableRecord :=
  VariableRecord.mk <$> withDefault fields "context" none (optional Checked.text)
    <*> required fields "name" Checked.name
    <*> required fields "value" Checked.name
    <*> withDefault fields "value_context" none (optional Checked.text)

/-- Reads a variable. -/
def ofJson : Json → Checked VariableRecord := record ofFields

/-- A variable from the names that a tree gives; a missing name of the type is an empty one. -/
def make (context : Option String) (name : Json) (value valueContext : Option Json) :
    Checked VariableRecord :=
  VariableRecord.mk context <$> (Checked.name name).under "name"
    <*> (Checked.name (value.getD (.str ""))).under "value"
    <*> (optional Checked.text (valueContext.getD .null)).under "value_context"

/-- A variable as a JSON object. -/
def toJson (v : VariableRecord) : Json :=
  .obj [("context", Json.ofText? v.context), ("name", .str v.name), ("value", .str v.value),
    ("value_context", Json.ofText? v.valueContext)]

end VariableRecord

/-! ## Imports -/

/-- A name that is imported from a module. -/
structure ImportRecord where
  kind : ImportKind
  what : Name
  source : Name
  deriving DecidableEq, Repr

namespace ImportRecord

/-- The name of this record in reports. -/
def subject : String := "ImportRecord"

/-- The field that names the module: `from` if it is there, else `source`. -/
def sourceKey (fields : Fields) : String :=
  if Json.hasField "from" fields || !Json.hasField "source" fields then "from" else "source"

/-- Reads an import from the fields of an object. -/
def ofFields (fields : Fields) : Checked ImportRecord :=
  ImportRecord.mk <$> required fields "type" (member ImportKind.ofText?)
    <*> required fields "what" Checked.name
    <*> required fields (sourceKey fields) Checked.name

/-- Reads an import. -/
def ofJson : Json → Checked ImportRecord := record ofFields

/-- An import from the names that a tree gives. -/
def make (kind : ImportKind) (what source : Json) : Checked ImportRecord :=
  ImportRecord.mk kind <$> (Checked.name what).under "what"
    <*> (Checked.name source).under "source"

/-- An import as a JSON object, the module under the given field name. -/
def toJson (sourceKey : String) (i : ImportRecord) : Json :=
  .obj [("type", .str i.kind.text), ("what", .str i.what), (sourceKey, .str i.source)]

end ImportRecord

/-! ## Exports -/

/-- A name that is exported. -/
structure ExportRecord where
  name : Name
  isDefault : Bool
  deriving DecidableEq, Repr

namespace ExportRecord

/-- The name of this record in reports. -/
def subject : String := "ExportRecord"

/-- Reads an export from the fields of an object. -/
def ofFields (fields : Fields) : Checked ExportRecord :=
  ExportRecord.mk <$> required fields "name" Checked.name <*> required fields "is_default" flag

/-- Reads an export. -/
def ofJson : Json → Checked ExportRecord := record ofFields

/-- An export of the name that a tree gives. -/
def make (name : Json) (isDefault : Bool) : Checked ExportRecord :=
  (fun name => ⟨name, isDefault⟩) <$> (Checked.name name).under "name"

/-- An export as a JSON object. -/
def toJson (e : ExportRecord) : Json :=
  .obj [("name", .str e.name), ("is_default", .bool e.isDefault)]

end ExportRecord

end DeclCatalogue
