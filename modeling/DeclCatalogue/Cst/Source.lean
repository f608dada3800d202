import DeclCatalogue.Cst.Basic
import DeclCatalogue.Text.Blank
import DeclCatalogue.Text.Surrogate

/-!
# Sources

The bytes that a concrete syntax tree was parsed from. A node's text is what its bytes stand for in
UTF-8, held as all texts are; a range that cuts a character has none.
-/

namespace DeclCatalogue

/-- Why a range of bytes has no text. -/
inductive DecodeFault where
  | notUtf8
  deriving DecidableEq, Repr

/-- A result that depends on texts that can be decoded. -/
abbrev Decoded (α : Type) := Except DecodeFault α

/-- The bytes of a source. -/
structure Source where
  bytes : ByteArray

namespace Source

/-- The source of a text. -/
def ofText (s : String) : Source := ⟨s.toUTF8⟩

/-- The text that bytes stand for. -/
def decode (bytes : ByteArray) : Decoded String :=
  match String.fromUTF8? bytes with
  | some s => .ok (Text.held s)
  | none => .error .notUtf8

/-- The text of a node. -/
def text (source : Source) (head : CstHead) : Decoded String :=
  decode (source.bytes.extract head.start head.stop)

/-- The text of a node that may be missing; a missing one has an empty text. -/
def textOf? {α : Type} (source : Source) : Option (Cst α) → Decoded String
  | none => .ok ""
  | some c => source.text c.head

/-- The text of a node without white space at both ends. -/
def trimmedText (source : Source) (head : CstHead) : Decoded String :=
  (source.text head).map Text.trimBlank

/-- The line on which a node starts, counted from one. -/
def line (source : Source) (head : CstHead) : Nat :=
  ((source.bytes.extract 0 head.start).toList.filter fun b => b = 10).length + 1

end Source

/-- A text without the quotes around it, if it starts and ends with the same quote. -/
def unquote (s : String) : String :=
  match s.toList with
  | [] => s
  | quote :: rest =>
    if (quote = '"' || quote = '\'' || quote = '\x60') && rest.getLast? = some quote then
      String.ofList rest.dropLast
    else s

/-- The segments of a dotted name: what stands between its points, without white space around it;
blank segments are left out. -/
def segments (s : String) : List String :=
  ((Text.splitOn '.' s.toList).map fun piece => String.ofList (Text.trim Text.isBlank piece)).filter
    fun piece => piece ≠ ""

end DeclCatalogue
