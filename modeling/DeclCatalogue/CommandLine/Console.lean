import DeclCatalogue.Catalogue.Basic

/-!
# The console

What printing goes by, which is given from outside: the nodes that can become part of a document, and
the characters that the output has. Where one of the two is missing, printing ends with a fault.
-/

namespace DeclCatalogue

namespace Json

mutual
/-- How many levels deep a value is. -/
def depth : Json → Nat
  | .arr items => depthOfItems items + 1
  | .obj fields => depthOfFields fields + 1
  | _ => 1

/-- How deep the deepest item of a list is. -/
def depthOfItems : List Json → Nat
  | [] => 0
  | v :: rest => max (depth v) (depthOfItems rest)

/-- How deep the deepest value of an object is. -/
def depthOfFields : Fields → Nat
  | [] => 0
  | (_, v) :: rest => max (depth v) (depthOfFields rest)
end

end Json

/-- All declarations of a catalogue. -/
def Catalogue.declarations (catalogue : Catalogue) : List Declaration :=
  catalogue.buckets.flatMap fun b => Heading.all.flatMap b.2.declarations

namespace CommandLine

/-- What printing goes by. -/
structure Console where
  /-- Whether the node of a declaration can become part of a document. -/
  takes : Fields → Bool
  /-- Whether the output has a character. -/
  writes : Char → Bool

namespace Console

/-- The fault of a catalogue that cannot become a document, with or without its nodes. -/
def documentFault? (console : Console) (withNodes : Bool) (catalogue : Catalogue) : Option Fault :=
  if withNodes && !catalogue.declarations.all fun d => console.takes d.node then
    some .nestedTooDeeply
  else none

/-- The fault of a text that cannot be written. -/
def textFault? (console : Console) (text : String) : Option Fault :=
  if text.toList.all console.writes then none else some .unencodable

/-- The deepest value of a node that can become part of a document. -/
def maxDepth : Nat := 254

/-- The console whose output is written in UTF-8: it has all characters, and nothing for the half of
a surrogate pair. -/
def standard : Console :=
  { takes := fun node => decide (Json.depthOfFields node ≤ maxDepth)
    writes := fun c => (Text.unpaired? c).isNone }

end Console

end CommandLine

end DeclCatalogue
