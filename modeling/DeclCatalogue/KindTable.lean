import DeclCatalogue.Fault
import DeclCatalogue.SyntaxKind
import DeclCatalogue.Text.Digit

/-!
# Kind tables

A kind table gives names to the numeric kind tags of a tree. `KindTable.standard` holds the kinds
of `SyntaxKind`; `KindTable.ofFields` reads a table from a JSON object with entries in either
direction, name to tag or tag to name, as a dump of an enumeration has them.

An entry from name to tag goes before every entry from tag to name, and of two entries of one
direction the first one counts. Names that start with `First` or `Last` mark ranges of kinds; they
are other names of kinds that have one of their own and are never used.
-/

namespace DeclCatalogue

/-- The names of numeric kind tags; every tag occurs once. -/
structure KindTable where
  entries : List (Int × String)
  deriving DecidableEq, Repr

namespace KindTable

/-- The name of a kind that a table does not know. -/
def unknownName : String := "Unknown"

/-- The name of a tag. -/
def find? (table : KindTable) (tag : Int) : Option String :=
  (table.entries.find? fun e => e.1 = tag).map (·.2)

/-- Whether a table names a tag. -/
def contains (table : KindTable) (tag : Int) : Bool :=
  (table.find? tag).isSome

/-- How many tags a table names. -/
def size (table : KindTable) : Nat :=
  table.entries.length

/-- The names of `SyntaxKind`. -/
def standard : KindTable :=
  ⟨SyntaxKind.all.map fun k => ((k.code : Int), k.name)⟩

/-! ## Reading a table -/

/-- The entries without those whose tag stands in an earlier one. -/
def firstOfEach : List (Int × String) → List (Int × String)
  | [] => []
  | e :: rest => e :: (firstOfEach rest).filter fun f => f.1 ≠ e.1

/-- The table in which the first entry of each tag counts. -/
def ofEntries (entries : List (Int × String)) : KindTable :=
  ⟨firstOfEach entries⟩

theorem find?_firstOfEach (tag : Int) (entries : List (Int × String)) :
    (firstOfEach entries).find? (fun e => e.1 = tag) = entries.find? fun e => e.1 = tag := by
  induction entries with
  | nil => rfl
  | cons e rest ih =>
    by_cases h : e.1 = tag
    · simp [firstOfEach, h]
    · rw [firstOfEach, List.find?_cons_of_neg (by simpa using h),
        List.find?_cons_of_neg (by simpa using h), ← ih, List.find?_filter]
      congr 1
      funext f
      by_cases hf : f.1 = tag
      · have : f.1 ≠ e.1 := fun k => h (k.symm.trans hf)
        simp [hf, hf ▸ this]
      · simp [hf]

theorem find?_ofEntries (tag : Int) (entries : List (Int × String)) :
    (ofEntries entries).find? tag = (entries.find? fun e => e.1 = tag).map (·.2) := by
  rw [find?, ofEntries, find?_firstOfEach]

/-- Whether a name marks a range of kinds. -/
def isRangeMarker (name : String) : Bool :=
  "First".toList.isPrefixOf name.toList || "Last".toList.isPrefixOf name.toList

/-- The entries from name to tag, range markers left out. -/
def forwardEntries (fields : Fields) : List (Int × String) :=
  fields.filterMap fun
    | (name, .int tag) => if isRangeMarker name then none else some (tag, name)
    | _ => none

/-- Whether a field name is a tag: digits, behind any number of minus signs. -/
def isTag (key : String) : Bool :=
  Text.isDigits (key.toList.dropWhile (· = '-'))

/-- The entries from tag to name, range markers left out. A field name that has the form of a tag
and stands for no integer is a fault. -/
def reverseEntries : Fields → Except Fault (List (Int × String))
  | [] => .ok []
  | (key, .str name) :: rest =>
    if isTag key && !isRangeMarker name then
      match Text.integer? key.toList with
      | none => .error .badNumeral
      | some tag => (reverseEntries rest).map ((tag, name) :: ·)
    else reverseEntries rest
  | _ :: rest => reverseEntries rest

/-- The table that an object with entries of either direction describes. -/
def ofFields (fields : Fields) : Except Fault KindTable :=
  (reverseEntries fields).map fun reverse => ofEntries (forwardEntries fields ++ reverse)

/-- The table that a JSON value describes; the path is for the message. -/
def ofJson (path : String) : Json → Except Fault KindTable
  | .obj fields => ofFields fields
  | _ => .error (.tableNotObject path)

/-! ## Naming kinds -/

/-- The table itself, or the standard one in place of a table without entries. -/
def orStandard (table : KindTable) : KindTable :=
  if table.entries.isEmpty then standard else table

/-- The tag that a number stands for: its integer part. An infinite number has none, and neither has
what is no number. -/
def tagOf : Json → Except Fault Int
  | .bool b => .ok (if b then 1 else 0)
  | .int n => .ok n
  | .real x =>
    match x.truncate with
    | some n => .ok n
    | none => .error (if x.isNaN then .kindNotANumber else .kindInfinite)
  | _ => .error .kindNotNumeric

/-- The name of a kind. A text names itself, null has no name, and a number has the name that the
table gives it. -/
def nameOf (table : KindTable) : Json → Except Fault (Option String)
  | .null => .ok none
  | .str name => .ok (some name)
  | kind => (tagOf kind).map fun tag => some ((table.find? tag).getD unknownName)

/-- The name of a node's kind; none for a value that is no node. -/
def kindName (table : KindTable) : Json → Except Fault (Option String)
  | .obj fields => table.orStandard.nameOf (Json.lookup "kind" fields)
  | _ => .ok none

/-- Whether a table names the tag that a value is equal to. A list or an object is no tag. -/
def holds (table : KindTable) : Json → Except Fault Bool
  | .arr _ | .obj _ => .error .unusableKey
  | .bool b => .ok (table.contains (if b then 1 else 0))
  | .int n => .ok (table.contains n)
  | .real x => .ok (x.integer?.any fun n => table.contains n)
  | _ => .ok false

end KindTable

end DeclCatalogue
