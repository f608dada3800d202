import DeclCatalogue.Text.Blank

/-!
# File paths

Paths are texts with slashes between their parts. `Path.normalize` leaves out empty parts and parts
that are one dot, which say nothing about where a path leads; `Path.suffix` is the ending of the
last part.
-/

namespace DeclCatalogue.Path

/-- The parts of a path that lead somewhere: all but empty ones and single dots. -/
def parts (path : String) : List String :=
  ((Text.splitOn '/' path.toList).map String.ofList).filter fun p => p ≠ "" && p ≠ "."

/-- The slashes that a path keeps in front: two if it starts with exactly two, one if it starts
with any other number of them. -/
def root (path : String) : String :=
  match path.toList with
  | '/' :: '/' :: '/' :: _ => "/"
  | '/' :: '/' :: _ => "//"
  | '/' :: _ => "/"
  | _ => ""

/-- A path without the parts that say nothing. -/
def normalize (path : String) : String :=
  let joined := root path ++ "/".intercalate (parts path)
  if joined = "" then "." else joined

/-- The last part of a path. -/
def fileName (path : String) : String :=
  (parts path).getLast?.getD ""

/-- The ending of a name from its last point on; none if the point is its first or its last
character. -/
def suffix (path : String) : String :=
  let reversed := (fileName path).toList.reverse
  let ending := reversed.takeWhile (· ≠ '.')
  let before := (reversed.drop ending.length).drop 1
  if ending.length < reversed.length && !ending.isEmpty && !before.isEmpty then
    String.ofList ('.' :: ending.reverse)
  else ""

end DeclCatalogue.Path
