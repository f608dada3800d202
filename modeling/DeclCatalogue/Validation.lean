import DeclCatalogue.Json.Basic
import DeclCatalogue.Text.Surrogate

/-!
# Checking values against records

Records and settings are read from JSON values. A check of a record goes through all of its fields
and reports every field that does not fit, in the order of the fields. `Checked` is the outcome of
a check; joining two outcomes joins their issues.

The checks of single values are `text`, `name`, `flag`, `integer`, `object` and `member`;
`optional`, `items` and `record` build larger ones from them.
-/

namespace DeclCatalogue

/-- What is wrong with a value. -/
inductive Misfit where
  | missing
  | notText
  | notUnicode
  | emptyText
  | noMember
  | notDictionary
  | notList
  | notRecord
  | unknownFlagText
  | notFlag
  | fractional
  | badNumeral
  | numeralTooLong
  | notFinite
  | notInteger
  | unknownField
  deriving DecidableEq, Repr

/-- The word by which a misfit is reported. -/
def Misfit.word : Misfit → String
  | .missing => "missing"
  | .notText => "string_type"
  | .notUnicode => "string_unicode"
  | .emptyText => "string_too_short"
  | .noMember => "enum"
  | .notDictionary => "dict_type"
  | .notList => "list_type"
  | .notRecord => "model_type"
  | .unknownFlagText => "bool_parsing"
  | .notFlag => "bool_type"
  | .fractional => "int_from_float"
  | .badNumeral => "int_parsing"
  | .numeralTooLong => "int_parsing_size"
  | .notFinite => "finite_number"
  | .notInteger => "int_type"
  | .unknownField => "extra_forbidden"

/-- A misfit and the path to the value that it is about. -/
structure Issue where
  path : List String
  misfit : Misfit
  deriving DecidableEq, Repr

/-- The issues of one record, with the name of the record. -/
structure Report where
  subject : String
  issues : List Issue
  deriving DecidableEq, Repr

/-- The path of an issue, joined by points, and the word for what is wrong there. -/
def Issue.message (issue : Issue) : String :=
  ".".intercalate issue.path ++ ": " ++ issue.misfit.word

/-- The subject of a report and all its issues. -/
def Report.message (report : Report) : String :=
  report.subject ++ ": " ++ "; ".intercalate (report.issues.map Issue.message)

/-- A text of at least one character, all of which stands for characters. -/
abbrev Name := { text : String // text ≠ "" ∧ Text.isWellFormed text = true }

/-- The outcome of a check: what was read, or all that is wrong. -/
inductive Checked (α : Type) where
  | valid (value : α)
  | invalid (issues : List Issue)
  deriving Repr

namespace Checked

variable {α β : Type}

/-- Applies a function to what was read. -/
protected def map (f : α → β) : Checked α → Checked β
  | .valid a => .valid (f a)
  | .invalid issues => .invalid issues

/-- Joins two outcomes. Issues of both are kept, those of the first one first. -/
protected def ap : Checked (α → β) → Checked α → Checked β
  | .valid f, .valid a => .valid (f a)
  | .valid _, .invalid issues => .invalid issues
  | .invalid issues, .valid _ => .invalid issues
  | .invalid issues, .invalid more => .invalid (issues ++ more)

instance : Applicative Checked where
  pure := .valid
  map := Checked.map
  seq f a := Checked.ap f (a ())

/-- One issue with the value itself. -/
def fail (misfit : Misfit) : Checked α :=
  .invalid [⟨[], misfit⟩]

/-- Puts a step in front of the path of each issue. -/
def under (step : String) : Checked α → Checked α
  | .valid a => .valid a
  | .invalid issues => .invalid (issues.map fun i => { i with path := step :: i.path })

/-- The outcome as a result, with the name of the record in the report. -/
def toExcept (subject : String) : Checked α → Except Report α
  | .valid a => .ok a
  | .invalid issues => .error ⟨subject, issues⟩

@[simp] theorem pure_eq (a : α) : (pure a : Checked α) = .valid a := rfl

@[simp] theorem map_valid (f : α → β) (a : α) : f <$> (Checked.valid a) = .valid (f a) := rfl

@[simp] theorem seq_valid (f : α → β) (a : α) :
    (Checked.valid f) <*> (Checked.valid a) = .valid (f a) := rfl

/-! ## Single values -/

/-- A text. -/
def text : Json → Checked String
  | .str s => .valid s
  | _ => fail .notText

/-- A text of at least one character. Its length is counted in characters, so that all of it has to
stand for characters. -/
def name : Json → Checked Name
  | .str s =>
    if hformed : Text.isWellFormed s = true then
      if hempty : s = "" then fail .emptyText else .valid ⟨s, hempty, hformed⟩
    else fail .notUnicode
  | _ => fail .notText

/-- Null, or what the check accepts. -/
def optional (check : Json → Checked α) : Json → Checked (Option α)
  | .null => .valid none
  | v => some <$> check v

/-- A text that names a member of an enumeration. -/
def member (ofText? : String → Option α) : Json → Checked α
  | .str s =>
    if Text.isWellFormed s then
      match ofText? s with
      | some a => .valid a
      | none => fail .noMember
    else fail .notUnicode
  | _ => fail .noMember

/-- An object. -/
def object : Json → Checked Fields
  | .obj fields => .valid fields
  | _ => fail .notDictionary

/-- The words for true and false, in any case. -/
def flagOfWord? (s : String) : Option Bool :=
  let word := s.map Char.toLower
  if ["true", "t", "yes", "y", "on", "1"].contains word then some true
  else if ["false", "f", "no", "n", "off", "0"].contains word then some false
  else none

/-- Whether a signed word of sixty-four bits holds an integer. -/
def fitsWord (n : Int) : Bool :=
  -0x8000000000000000 ≤ n && n < 0x8000000000000000

/-- A truth value from an integer: zero or one. No other integer stands for a truth value, and one
that a word does not hold is not even looked at as one. -/
def flagOfInteger (n : Int) : Checked Bool :=
  if n = 0 then .valid false
  else if n = 1 then .valid true
  else fail (if fitsWord n then .unknownFlagText else .notFlag)

/-- A truth value from a floating-point number, whose magnitude has to fit into a signed word. -/
def flagOfReal (x : Binary64) : Checked Bool :=
  match x.integer? with
  | some n => if fitsWord n.natAbs then flagOfInteger n else fail .notFlag
  | none => fail .notFlag

/-- A truth value, a number equal to zero or one, or a word for a truth value. -/
def flag : Json → Checked Bool
  | .bool b => .valid b
  | .int n => flagOfInteger n
  | .real x => flagOfReal x
  | .str s =>
    if !Text.isWellFormed s then fail .notUnicode
    else
      match flagOfWord? s with
      | some b => .valid b
      | none => fail .unknownFlagText
  | _ => fail .notFlag

/-! ## Lists and records -/

/-- The outcomes of the items of a list from a position on, joined. -/
def itemsFrom (check : Json → Checked α) : Nat → List Json → Checked (List α)
  | _, [] => .valid []
  | n, v :: rest =>
    List.cons <$> (check v).under (toString n) <*> itemsFrom check (n + 1) rest

/-- A list of what the check accepts. Positions count from zero. -/
def items (check : Json → Checked α) : Json → Checked (List α)
  | .arr vs => itemsFrom check 0 vs
  | _ => fail .notList

/-- A field that has to be there. -/
def required (fields : Fields) (key : String) (check : Json → Checked α) : Checked α :=
  match Json.find? key fields with
  | some v => (check v).under key
  | none => (fail .missing).under key

/-- A field with a value for when it is not there. -/
def withDefault (fields : Fields) (key : String) (default : α) (check : Json → Checked α) :
    Checked α :=
  match Json.find? key fields with
  | some v => (check v).under key
  | none => .valid default

/-- An object whose fields the check accepts. -/
def record (check : Fields → Checked α) : Json → Checked α
  | .obj fields => check fields
  | _ => fail .notRecord

end Checked

end DeclCatalogue
