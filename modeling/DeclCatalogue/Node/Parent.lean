import DeclCatalogue.Json.Basic

/-!
# Parent links

In a linked tree every object that lies inside another one names the nearest object around it under
`parent`. A value cannot contain itself, so a link holds the enclosing object as it is without
links.
-/

namespace DeclCatalogue.Node

mutual
/-- A value without the `parent` of any object in it. -/
def unlink : Json → Json
  | .arr vs => .arr (unlinkItems vs)
  | .obj fields => .obj (unlinkFields fields)
  | v => v

/-- The items of a list without links. -/
def unlinkItems : List Json → List Json
  | [] => []
  | v :: rest => unlink v :: unlinkItems rest

/-- The fields other than `parent`, without links. -/
def unlinkFields : Fields → Fields
  | [] => []
  | (key, v) :: rest =>
    if key = "parent" then unlinkFields rest else (key, unlink v) :: unlinkFields rest
end

/-- Sets the link of an object that has an enclosing object. -/
def setParent (enclosing : Option Json) (fields : Fields) : Fields :=
  match enclosing with
  | none => fields
  | some parent => Json.setField "parent" parent fields

mutual
/-- A value in which all objects are linked; `enclosing` is the nearest object around it. -/
def linkUnder (enclosing : Option Json) : Json → Json
  | .arr vs => .arr (linkItems enclosing vs)
  | .obj fields =>
    .obj (setParent enclosing (linkFields (some (.obj (unlinkFields fields))) fields))
  | v => v

/-- The linked items of a list. -/
def linkItems (enclosing : Option Json) : List Json → List Json
  | [] => []
  | v :: rest => linkUnder enclosing v :: linkItems enclosing rest

/-- The fields of an object, their values linked; what stands under `parent` is left alone. -/
def linkFields (enclosing : Option Json) : Fields → Fields
  | [] => []
  | (key, v) :: rest =>
    (key, if key = "parent" then v else linkUnder enclosing v) :: linkFields enclosing rest
end

/-- A tree in which all objects inside another one are linked. -/
def linkParents (tree : Json) : Json :=
  linkUnder none tree

/-- What is shown of an enclosing object: its kind and its range. -/
def shownParent (parent : Json) : Json :=
  .arr [parent.field "kind", parent.field "pos", parent.field "end"]

mutual
/-- A tree as it is shown: of an object under `parent` only the kind and the range. -/
def shown : Json → Json
  | .arr vs => .arr (shownItems vs)
  | .obj fields => .obj (shownFields fields)
  | v => v

/-- The items of a list as they are shown. -/
def shownItems : List Json → List Json
  | [] => []
  | v :: rest => shown v :: shownItems rest

/-- The fields of an object as they are shown. -/
def shownFields : Fields → Fields
  | [] => []
  | (key, v) :: rest =>
    (key, if key = "parent" ∧ v.fields?.isSome then shownParent v else shown v)
      :: shownFields rest
end

end DeclCatalogue.Node
