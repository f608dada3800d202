import DeclCatalogue.Node.Modifier
import DeclCatalogue.Node.Name
import DeclCatalogue.Node.Strip
import DeclCatalogue.Walk.Effect

/-!
# Collecting records from nodes

One step for each kind of statement that is recorded: it strips the node, shapes the records and
pushes them. Declarations, variables and exports are shaped as a whole before the first push; the
names of an import are pushed one by one.
-/

namespace DeclCatalogue

/-- What is drawn to tell names apart: a text in ASCII, of at least one character. -/
abbrev Token := { text : String // text ≠ "" ∧ text.toList.all Text.isAscii = true }

/-- A source of tokens: the token that is drawn at each count. -/
abbrev Tokens := Nat → Token

/-- The source whose tokens are the counts themselves, in thirty-two digits. -/
def Tokens.counted : Tokens := fun count =>
  ⟨String.ofList (Text.hexDigits 32 count), by
    constructor
    · intro hempty
      have hdigits := Text.le_length_hexDigits 32 count
      rw [show Text.hexDigits 32 count = [] by simpa using congrArg String.toList hempty] at hdigits
      cases hdigits
    · rw [String.toList_ofList]
      exact List.all_eq_true.mpr fun c => Text.isAscii_of_mem_hexDigits⟩

/-- What a walk goes by: the names of contexts and placeholders, the flags of namespaces, the names
of kinds, and the tokens that stand for names. -/
structure Walker where
  rootContext : String
  namespacePrefix : String
  placeholderPrefix : String
  namespaceFlags : Int
  kinds : KindTable
  tokens : Tokens

/-- The statements that are recorded by a step of their own. -/
inductive Collector where
  | declaration (heading : Heading)
  | variableStatement
  | exportAssignment
  | importDeclaration
  deriving DecidableEq, Repr

namespace Walker

/-- The fields of a stripped node. -/
def strippedFields (w : Walker) (node : Json) : Walk Fields := do
  match ← Walk.ofExcept (Node.strip w.kinds node) with
  | .obj fields => pure fields
  | _ => Walk.fail .notAnObject

/-- The name of a declaration; one that has none is logged and ends the walk. -/
def resolveName (fields : Fields) : Walk Json :=
  match Node.declaredName? fields with
  | some name => pure name
  | none => do
    Walk.log .error "Unable to resolve declaration name"
      [("kind", Json.lookup "kind" fields), ("node", .obj fields)]
    Walk.fail (.unresolvableName (.obj fields))

/-- The name of a value that has to be a declaration. -/
def resolveNameOf : Json → Walk Json
  | .obj fields => resolveName fields
  | _ => Walk.fail .notAnObject

/-! ## Declarations -/

/-- The record of a declaration, whose node keeps the resolved name alone under `name`. A
declaration with an export modifier is reported as exported. -/
def shapeDeclaration (fields : Fields) (context : Json) (kind : DeclarationKind) :
    Walk Declaration := do
  let name ← resolveName fields
  let named := Json.setField "name" (.obj [("text", name)]) fields
  let modifiers ← Walk.ofExcept (Node.modifiers (.obj named))
  let exported := modifiers.contains .exported
  let record ← Walk.ofChecked Declaration.subject
    (Declaration.make context kind name exported named)
  if exported then Walk.emit (.exported record context)
  return record

/-- Records a function, interface, type alias or class. -/
def collectDeclaration (w : Walker) (heading : Heading) (node context : Json) : Walk Unit := do
  let fields ← w.strippedFields node
  let record ← shapeDeclaration fields context heading.kind
  Walk.push (.declaration heading record context)

/-! ## Variables -/

/-- The record of one variable. Only a variable with a single name and a type reference has one;
any other is logged. The name of a qualified type is split at its last point. -/
def shapeVariable (w : Walker) (context declaration : Json) : Walk (Option VariableRecord) := do
  let type ← Walk.ofExcept (Node.get declaration "type")
  let typeName ← Walk.ofExcept (Node.getPresent type "typeName")
  let nameNode := declaration.field "name"
  let name := Node.identifierText nameNode
  if !typeName.truthy then
    Walk.log .debug "Skipping variable without a type reference"
      [("context", context), ("name", name.getD .null)]
    return none
  else
    match name with
    | none =>
      let pattern ← Walk.ofExcept (Node.getPresent nameNode "kind")
      Walk.log .debug "Skipping destructured variable" [("context", context), ("pattern", pattern)]
      return none
    | some name =>
      let left ← Walk.ofExcept (Node.get typeName "left")
      let right := typeName.field "right"
      let checked :=
        if left.truthy && right.truthy then
          VariableRecord.make none name (Node.identifierText right) (Node.entityName left)
        else VariableRecord.make (some w.rootContext) name (Node.entityName typeName) none
      some <$> Walk.ofChecked VariableRecord.subject checked

/-- The records of a list of variables. -/
def shapeVariables (w : Walker) (context : Json) : List Json → Walk (List VariableRecord)
  | [] => pure []
  | v :: rest => do
    let record ← w.shapeVariable context v
    let records ← w.shapeVariables context rest
    return record.toList ++ records

/-- Records the variables of a statement that have a type reference. -/
def collectVariables (w : Walker) (node context : Json) : Walk Unit := do
  let fields ← w.strippedFields node
  let listed ← Walk.ofExcept do
    Node.items (← Node.getPresent (Json.lookup "declarationList" fields) "declarations")
  let records ← w.shapeVariables context listed
  Walk.forEach (fun record => Walk.push (.variableRecord record context)) records

/-! ## Exports and imports -/

/-- Records a default export under the name of the exported expression. -/
def collectExport (w : Walker) (node context : Json) : Walk Unit := do
  let fields ← w.strippedFields node
  match Node.entityName (Json.lookup "expression" fields) with
  | none =>
    Walk.log .error "Unable to resolve exported expression name"
      [("context", context), ("node", .obj fields)]
    Walk.fail (.unresolvableName (.obj fields))
  | some name =>
    let record ← Walk.ofChecked ExportRecord.subject (ExportRecord.make name true)
    Walk.push (.exportRecord record context)

/-- The name that stands for an import without a name: the prefix and the token of a count. -/
def placeholder (w : Walker) (count : Nat) : String :=
  w.placeholderPrefix ++ w.tokens count

/-- Records one imported name. -/
def pushImport (kind : ImportKind) (what source : Json) : Walk Unit := do
  let record ← Walk.ofChecked ImportRecord.subject (ImportRecord.make kind what source)
  Walk.push (.importRecord record)

/-- Records the names of a pair of bindings: the one name of all that a module exports, or each
imported name. -/
def collectBindings (source bindings : Json) : Walk Unit := do
  let nameNode ← Walk.ofExcept (Node.get bindings "name")
  match Node.identifierText nameNode with
  | some name => pushImport .default name source
  | none =>
    let elements ← Walk.ofExcept (Node.items (bindings.field "elements"))
    Walk.forEach (fun element => do
      let name ← resolveNameOf element
      pushImport .explicit name source) elements

/-- Records the names that an import declares; one that declares none gets a placeholder. Imports
belong to no context. -/
def collectImport (w : Walker) (node : Json) : Walk Unit := do
  let fields ← w.strippedFields node
  let source ← resolveName fields
  let clause := Json.lookup "importClause" fields
  if !clause.truthy then
    let count ← Walk.token
    pushImport .default (.str (w.placeholder count)) source
  else
    let nameNode ← Walk.ofExcept (Node.get clause "name")
    match Node.identifierText nameNode with
    | some name => pushImport .default name source
    | none => pure ()
    let bindings := clause.field "namedBindings"
    if bindings.truthy then collectBindings source bindings

/-- Records a statement by the step of its kind. -/
def collect (w : Walker) (collector : Collector) (node context : Json) : Walk Unit :=
  match collector with
  | .declaration heading => w.collectDeclaration heading node context
  | .variableStatement => w.collectVariables node context
  | .exportAssignment => w.collectExport node context
  | .importDeclaration => w.collectImport node

end Walker

end DeclCatalogue
