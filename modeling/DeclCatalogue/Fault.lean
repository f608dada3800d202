import DeclCatalogue.Json.Display
import DeclCatalogue.Validation

/-!
# Faults

Everything that can end a walk, an extraction or the reading of settings, by its cause, and the
wording of the causes that have one.
-/

namespace DeclCatalogue

/-- The causes for which an operation gives up. -/
inductive Fault where
  /-- A declaration, import or module without a usable name; the node is kept. -/
  | unresolvableName (node : Json)
  /-- A tree or module body without a list of statements; the name of its kind is kept. -/
  | noStatementList (kind : Option String)
  /-- A source with syntax errors, where none are accepted; the name of its file is kept. -/
  | syntaxErrors (file : Option String)
  /-- A record or settings that do not pass their check. -/
  | invalid (report : Report)
  /-- A kind table file that holds some other JSON value. -/
  | tableNotObject (path : String)
  /-- A field is asked of a value that is no object. -/
  | notAnObject
  /-- Items are asked of a value that has none. -/
  | notIterable
  /-- A kind that is neither a name nor a number. -/
  | kindNotNumeric
  /-- A kind that is infinite, so that no tag is nearest to it. -/
  | kindInfinite
  /-- A kind that is the floating-point value for what is no number. -/
  | kindNotANumber
  /-- Flags that are not an integer. -/
  | flagsNotInteger
  /-- A list or an object used as a key. -/
  | unusableKey
  /-- A key that is no text, where the name of a field stands. -/
  | nameNotText
  /-- Something other than field names with values where fields are set. -/
  | notPairs
  /-- A list or a text of the wrong length where a field name with a value is set. -/
  | unpaired
  /-- A numeral that stands for no integer, or for one that is too long. -/
  | badNumeral
  /-- A number that is no member of an enumeration. -/
  | notAMember
  /-- A text that is no JSON document. -/
  | malformedJson
  /-- Bytes that are no UTF-8 text. -/
  | undecodable
  | missingFile
  | isDirectory
  /-- A record whose node nests too deeply to become part of a document. -/
  | nestedTooDeeply
  /-- A text that cannot be written where the output goes. -/
  | unencodable
  deriving DecidableEq, Repr

namespace Fault

/-- What a message calls a node: the text of its kind, if it has one. -/
def describe (node : Json) : String :=
  let kind := node.field "kind"
  if kind.truthy then kind.display else "node"

/-- The wording of a fault, where it has one. -/
def message? : Fault → Option String
  | .unresolvableName node => some ("Unable to resolve a name for " ++ describe node)
  | .noStatementList kind =>
    some ("Expected a node with a statement list, got " ++ kind.getD "None")
  | .syntaxErrors file => some ("Syntax errors in " ++ named file)
  | .invalid report => some report.message
  | .tableNotObject path => some ("kind table " ++ path ++ " must be a JSON object")
  | _ => none
where
  /-- A file without a name, or with an empty one, is called a source. -/
  named : Option String → String
    | none => "<source>"
    | some file => if file = "" then "<source>" else file

end Fault

end DeclCatalogue
