import DeclCatalogue.Json.Basic

/-!
# Equality by value

Two JSON values can be equal as values without being the same: an integer and a floating-point
number may be the same number, true and false count as one and zero, and the order of the fields
of an object does not matter. `Json.same` is this coarser equality.
-/

namespace DeclCatalogue.Json

/-- The integer that a value is equal to as a number, if there is one. -/
def integer? : Json → Option Int
  | .bool b => some (if b then 1 else 0)
  | .int n => some n
  | .real x => x.integer?
  | _ => none

/-- Equality of two numbers; false unless both are numbers. -/
def sameNumber (a b : Json) : Bool :=
  match a, b with
  | .real x, .real y => x.sameNumber y
  | _, _ =>
    match a.integer?, b.integer? with
    | some m, some n => m = n
    | _, _ => false

mutual
/-- Equality by value. -/
def same : Json → Json → Bool
  | .null, b => b = .null
  | .str s, b => b = .str s
  | .arr items, b =>
    match b with
    | .arr others => sameItems items others
    | _ => false
  | .obj fields, b =>
    match b with
    | .obj others => fields.length = others.length && sameFields fields others
    | _ => false
  | .bool a, b => sameNumber (.bool a) b
  | .int a, b => sameNumber (.int a) b
  | .real a, b => sameNumber (.real a) b
  termination_by structural a => a

/-- Equality of two lists by value, item by item. -/
def sameItems : List Json → List Json → Bool
  | [], others => others.isEmpty
  | a :: as, others =>
    match others with
    | [] => false
    | b :: bs => same a b && sameItems as bs
  termination_by structural a => a

/-- Whether each of the fields has an equal one of its name among the others. -/
def sameFields : Fields → Fields → Bool
  | [], _ => true
  | (k, v) :: rest, others =>
    hasField k others && same v (lookup k others) && sameFields rest others
  termination_by structural a => a
end

/-- A text is equal by value only to itself. -/
theorem same_str (s t : String) : same (.str s) (.str t) = decide (t = s) := by
  simp [same]

end DeclCatalogue.Json
