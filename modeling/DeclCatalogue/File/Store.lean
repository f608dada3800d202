import DeclCatalogue.Cst.Source
import DeclCatalogue.Fault
import DeclCatalogue.File.Path

/-!
# Files

The files that a run may read, as a function from paths to what is found there. `Files.ofList`
gives one for a list of files below a directory of their own, in which a path leads from part to
part.
-/

namespace DeclCatalogue

/-- What is found under a path. -/
inductive FileEntry where
  | file (bytes : ByteArray)
  | directory

/-- What is found under each path, if anything. -/
abbrev Files := String → Option FileEntry

namespace Files

/-- The bytes of a file. -/
def read (files : Files) (path : String) : Except Fault ByteArray :=
  match files path with
  | some (.file bytes) => .ok bytes
  | some .directory => .error .isDirectory
  | none => .error .missingFile

/-- The text of a file. -/
def readText (files : Files) (path : String) : Except Fault String := do
  let bytes ← files.read path
  (Source.decode bytes).mapError fun _ => .undecodable

/-- Whether a file is found under a path. -/
def isFile (files : Files) (path : String) : Bool :=
  match files path with
  | some (.file _) => true
  | _ => false

/-! ## Files in a list -/

/-- The directory or file that a list of parts names. -/
def entryAt (stored : List (List String × ByteArray)) (place : List String) : Option FileEntry :=
  match stored.find? fun f => f.1 = place with
  | some f => some (.file f.2)
  | none =>
    if place.isEmpty || stored.any fun f => place.isPrefixOf f.1 then some .directory else none

/-- Follows the parts of a path from a place on. Every step has to start in a directory, also one
that stays there; no step leads out of the uppermost directory. -/
def follow (stored : List (List String × ByteArray)) : List String → List String → Option FileEntry
  | place, [] => entryAt stored place
  | place, part :: rest =>
    match entryAt stored place with
    | some .directory =>
      if part = "" ∨ part = "." then follow stored place rest
      else if part = ".." then
        if place.isEmpty then none else follow stored place.dropLast rest
      else follow stored (place ++ [part]) rest
    | _ => none

/-- The files of a list, under their paths. The last one under a path counts. -/
def ofList (listed : List (String × ByteArray)) : Files := fun path =>
  if path = "" || (Path.root path) ≠ "" then none
  else
    let stored := (listed.map fun f => (Path.parts f.1, f.2)).reverse
    follow stored [] ((Text.splitOn '/' path.toList).map String.ofList)

end Files

end DeclCatalogue
