import DeclCatalogue.KindTable

/-!
# Stripping nodes

A stripped node is a node without the bookkeeping of the parser that made it, its offsets, flags
and parent, and with the names of kinds in place of their tags. Bookkeeping is dropped before what
it holds is looked at.
-/

namespace DeclCatalogue.Node

/-- Whether a field is bookkeeping of the parser. -/
def isBookkeeping (key : String) : Bool :=
  key = "pos" || key = "end" || key = "parent" || key = "flags"

/-- An object with the name of its kind in place of its kind, if it has one. -/
def nameKind (table : KindTable) (fields : Fields) : Except Fault Fields :=
  match Json.find? "kind" fields with
  | none => .ok fields
  | some kind =>
    (table.orStandard.nameOf kind).map fun name =>
      Json.setField "kind" (Json.ofText? name) fields

mutual
/-- A value without bookkeeping at any depth and with every kind named. -/
def strip (table : KindTable) : Json → Except Fault Json
  | .arr vs => (stripItems table vs).map .arr
  | .obj fields => do
    let kept ← stripFields table fields
    let named ← nameKind table kept
    return .obj named
  | v => .ok v

/-- The stripped items of a list. -/
def stripItems (table : KindTable) : List Json → Except Fault (List Json)
  | [] => .ok []
  | v :: rest => do
    let v ← strip table v
    let rest ← stripItems table rest
    return v :: rest

/-- The fields that are no bookkeeping, their values stripped. -/
def stripFields (table : KindTable) : Fields → Except Fault Fields
  | [] => .ok []
  | (key, v) :: rest =>
    if isBookkeeping key then stripFields table rest
    else do
      let v ← strip table v
      let rest ← stripFields table rest
      return (key, v) :: rest
end

end DeclCatalogue.Node
