import DeclCatalogue.Fault
import DeclCatalogue.Json.Same
import DeclCatalogue.Record.Basic

/-!
# Catalogues

A catalogue groups declarations, variables and exports by the context they were pushed with;
namespaces and imports belong to the catalogue as a whole. Contexts stand in the order in which
they were first pushed to, and every list in the order of the pushes.

A catalogue is what its pushes make of the empty one: `Catalogue.push` is one push and
`Catalogue.replay` a list of them.
-/

namespace DeclCatalogue

/-- The lists of declarations of a context. -/
inductive Heading where
  | functions | interfaces | types | classes
  deriving DecidableEq, Repr

namespace Heading

/-- All headings, in the order of a bucket. -/
def all : List Heading := [.functions, .interfaces, .types, .classes]

/-- The kind of the declarations that belong under a heading. -/
def kind : Heading → DeclarationKind
  | .functions => .function
  | .interfaces => .interface
  | .types => .type
  | .classes => .class

end Heading

/-- What is recorded under one context. -/
structure Bucket where
  functions : List Declaration
  interfaces : List Declaration
  types : List Declaration
  classes : List Declaration
  variableRecords : List VariableRecord
  exports : List ExportRecord
  deriving DecidableEq, Repr

namespace Bucket

/-- A bucket without records. -/
def empty : Bucket := ⟨[], [], [], [], [], []⟩

/-- The declarations under a heading. -/
def declarations (b : Bucket) : Heading → List Declaration
  | .functions => b.functions
  | .interfaces => b.interfaces
  | .types => b.types
  | .classes => b.classes

/-- How many records each list of a bucket holds, with the name of the list. -/
def counts (b : Bucket) : List (String × Nat) :=
  [("functions", b.functions.length), ("interfaces", b.interfaces.length),
   ("types", b.types.length), ("classes", b.classes.length),
   ("variables", b.variableRecords.length), ("exports", b.exports.length)]

/-- Whether a bucket holds no record. -/
def isEmpty (b : Bucket) : Bool :=
  b.counts.all fun c => c.2 = 0

/-- Appends a declaration under a heading. -/
def addDeclaration (b : Bucket) (d : Declaration) : Heading → Bucket
  | .functions => { b with functions := b.functions ++ [d] }
  | .interfaces => { b with interfaces := b.interfaces ++ [d] }
  | .types => { b with types := b.types ++ [d] }
  | .classes => { b with classes := b.classes ++ [d] }

/-- Appends a variable. -/
def addVariable (b : Bucket) (v : VariableRecord) : Bucket :=
  { b with variableRecords := b.variableRecords ++ [v] }

/-- Appends an export. -/
def addExport (b : Bucket) (e : ExportRecord) : Bucket :=
  { b with exports := b.exports ++ [e] }

/-- The name of this record in reports. -/
def subject : String := "ContextCatalogue"

open Checked in
/-- Reads a bucket from the fields of an object; lists that are not there are empty. -/
def ofFields (fields : Fields) : Checked Bucket :=
  Bucket.mk <$> withDefault fields "functions" [] (items Declaration.ofJson)
    <*> withDefault fields "interfaces" [] (items Declaration.ofJson)
    <*> withDefault fields "types" [] (items Declaration.ofJson)
    <*> withDefault fields "classes" [] (items Declaration.ofJson)
    <*> withDefault fields "variables" [] (items VariableRecord.ofJson)
    <*> withDefault fields "exports" [] (items ExportRecord.ofJson)

/-- Reads a bucket. -/
def ofJson : Json → Checked Bucket := Checked.record ofFields

/-- A bucket as a JSON object, its declarations with or without their nodes. -/
def toJson (withNodes : Bool) (b : Bucket) : Json :=
  .obj [("functions", .arr (b.functions.map (Declaration.toJson withNodes))),
    ("interfaces", .arr (b.interfaces.map (Declaration.toJson withNodes))),
    ("types", .arr (b.types.map (Declaration.toJson withNodes))),
    ("classes", .arr (b.classes.map (Declaration.toJson withNodes))),
    ("variables", .arr (b.variableRecords.map VariableRecord.toJson)),
    ("exports", .arr (b.exports.map ExportRecord.toJson))]

end Bucket

/-- A record on its way into a catalogue. Contexts and names of namespaces are what the tree holds
as the name of a module, which is a text in all but odd trees. -/
inductive Push where
  | declaration (heading : Heading) (record : Declaration) (context : Json)
  | variableRecord (record : VariableRecord) (context : Json)
  | exportRecord (record : ExportRecord) (context : Json)
  | namespaceName (name : Json)
  | importRecord (record : ImportRecord)
  deriving DecidableEq, Repr

/-- The context that a push goes to, if it goes to one. -/
def Push.context? : Push → Option Json
  | .declaration _ _ context | .variableRecord _ context | .exportRecord _ context => some context
  | .namespaceName _ | .importRecord _ => none

/-- Whether the context of a push can be one: contexts are keys. -/
def Push.isUsable (p : Push) : Bool :=
  p.context?.all Json.isKey

/-- The records of any number of sources, grouped by context. -/
structure Catalogue where
  buckets : List (Json × Bucket)
  namespaces : List Json
  imports : List ImportRecord
  deriving DecidableEq, Repr

namespace Catalogue

/-- The catalogue without records. -/
def empty : Catalogue := ⟨[], [], []⟩

/-- Changes the bucket of a context; a context that has none gets an empty one first. -/
def updateBucket (context : Json) (change : Bucket → Bucket) :
    List (Json × Bucket) → List (Json × Bucket)
  | [] => [(context, change Bucket.empty)]
  | (c, b) :: rest =>
    if c.same context then (c, change b) :: rest
    else (c, b) :: updateBucket context change rest

/-- The catalogue with the bucket of a context changed. -/
def update (catalogue : Catalogue) (context : Json) (change : Bucket → Bucket) : Catalogue :=
  { catalogue with buckets := updateBucket context change catalogue.buckets }

/-- The catalogue with a bucket for the context, which may be new and empty. -/
def touch (catalogue : Catalogue) (context : Json) : Except Fault Catalogue :=
  if context.isKey then .ok (catalogue.update context id) else .error .unusableKey

/-- The bucket of a context; an empty one if nothing was pushed to the context. -/
def bucket (catalogue : Catalogue) (context : Json) : Bucket :=
  ((catalogue.buckets.find? fun b => b.1.same context).map (·.2)).getD Bucket.empty

/-- The contexts in the order in which they were first pushed to. -/
def contexts (catalogue : Catalogue) : List Json :=
  catalogue.buckets.map (·.1)

/-- The catalogue with a record more. A namespace that is already listed is not listed again. -/
def push (catalogue : Catalogue) : Push → Catalogue
  | .declaration heading record context =>
    catalogue.update context fun b => b.addDeclaration record heading
  | .variableRecord record context => catalogue.update context fun b => b.addVariable record
  | .exportRecord record context => catalogue.update context fun b => b.addExport record
  | .namespaceName name =>
    if catalogue.namespaces.any fun n => n.same name then catalogue
    else { catalogue with namespaces := catalogue.namespaces ++ [name] }
  | .importRecord record => { catalogue with imports := catalogue.imports ++ [record] }

/-- The catalogue after a list of pushes. -/
def replay (catalogue : Catalogue) (pushes : List Push) : Catalogue :=
  pushes.foldl push catalogue

/-- A push that is refused if its context cannot be one. -/
def push? (catalogue : Catalogue) (p : Push) : Except Fault Catalogue :=
  if p.isUsable then .ok (catalogue.push p) else .error .unusableKey

theorem replay_append (catalogue : Catalogue) (ps qs : List Push) :
    catalogue.replay (ps ++ qs) = (catalogue.replay ps).replay qs := by
  simp [replay]

end Catalogue

end DeclCatalogue
