import DeclCatalogue.Fault
import DeclCatalogue.Text.Surrogate

/-!
# Looking into nodes

A syntax node is an object with a `kind`, and nothing else about it is certain. These are the two
ways of looking into a value that fail when the value has the wrong shape: for a field, and for the
items that it holds.
-/

namespace DeclCatalogue.Node

/-- The value of a field of an object; null if the object has no such field. -/
def get (node : Json) (key : String) : Except Fault Json :=
  match node with
  | .obj fields => .ok (Json.lookup key fields)
  | _ => .error .notAnObject

/-- The value of a field of an object, where a value that counts as absent has no fields. -/
def getPresent (node : Json) (key : String) : Except Fault Json :=
  if node.truthy then get node key else .ok .null

/-- The items that a value holds: those of a list, the characters of a text and the names of an
object's fields. A value that counts as absent holds none. -/
def items : Json → Except Fault (List Json)
  | .arr vs => .ok vs
  | .str s => .ok ((Text.characters s.toList).map fun held => .str (String.ofList held))
  | .obj fields => .ok (fields.map fun f => .str f.1)
  | v => if v.truthy then .error .notIterable else .ok []

@[simp] theorem get_obj (fields : Fields) (key : String) :
    get (.obj fields) key = .ok (Json.lookup key fields) := rfl

@[simp] theorem items_arr (vs : List Json) : items (.arr vs) = .ok vs := rfl

end DeclCatalogue.Node
