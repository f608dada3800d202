import DeclCatalogue.Json.Basic
import Mathlib.Data.List.Forall2

/-!
# Places in a value

A path leads from a value down to one of its parts, through the fields of objects and the items of
lists. `Json.at?` is the part to which it leads, so that two values can be compared place by place:
whatever holds of what is one step below two related values holds of what is at the end of every
path (`at?_rel`). A path can keep clear of fields that play no part in a comparison
(`Path.Avoids`).

The last field on a path tells in which object the end of the path lies: behind it there are items
of lists alone, so that no object comes between (`Path.Leaves`). Where there is no field on a path,
its end lies in no object (`Path.InLists`).
-/

namespace DeclCatalogue.Json

/-- One step down: to an item of a list, or to the value of a field of an object. -/
inductive Step where
  | item (index : Nat)
  | field (key : String)
  deriving DecidableEq, Repr

/-- A way down, step by step. -/
abbrev Path := List Step

/-- What is one step below a value; of several fields with one name it is the first. -/
def child? : Json → Step → Option Json
  | .arr vs, .item i => vs[i]?
  | .obj fields, .field key => find? key fields
  | _, _ => none

/-- What is at the end of a path. -/
def at? (v : Json) : Path → Option Json
  | [] => some v
  | step :: rest => (v.child? step).bind fun u => u.at? rest

/-- No field on the path is one that is passed by. -/
def Path.Avoids (path : Path) (passedBy : String → Bool) : Prop :=
  ∀ key, .field key ∈ path → passedBy key = false

/-- A path through items of lists alone. -/
def Path.InLists (path : Path) : Prop :=
  ∃ indices : List Nat, path = indices.map .item

/-- The last field on the path is one of what is at the end of the path `place`. -/
def Path.Leaves (path place : Path) : Prop :=
  ∃ (key : String) (indices : List Nat), path = place ++ .field key :: indices.map .item

theorem Path.inLists_or_leaves (path : Path) : path.InLists ∨ ∃ place, path.Leaves place := by
  induction path with
  | nil => exact .inl ⟨[], rfl⟩
  | cons step rest ih =>
    rcases ih with ⟨indices, rfl⟩ | ⟨place, key, indices, rfl⟩
    · cases step with
      | item i => exact .inl ⟨i :: indices, rfl⟩
      | field key => exact .inr ⟨[], key, indices, rfl⟩
    · exact .inr ⟨step :: place, key, indices, rfl⟩

theorem at?_append (v : Json) (path rest : Path) :
    v.at? (path ++ rest) = (v.at? path).bind fun u => u.at? rest := by
  induction path generalizing v with
  | nil => rfl
  | cons step path ih =>
    rw [List.cons_append, at?, at?, Option.bind_assoc]
    exact congrArg _ (funext ih)

theorem rel_mono {R S : Json → Json → Prop} (h : ∀ {v w}, R v w → S v w) {before after : Option Json}
    (hrel : Option.Rel R before after) : Option.Rel S before after := by
  cases hrel with
  | some hboth => exact .some (h hboth)
  | none => exact .none

/-- A relation that passes from two values to what is one step below them passes to what is at the
end of every path. -/
theorem at?_rel {R : Json → Json → Prop} {passedBy : String → Bool}
    (hchild : ∀ {v w} step, R v w → (∀ key, step = .field key → passedBy key = false) →
      Option.Rel R (v.child? step) (w.child? step))
    {v w : Json} (h : R v w) {path : Path} (hpath : path.Avoids passedBy) :
    Option.Rel R (v.at? path) (w.at? path) := by
  induction path generalizing v w with
  | nil => exact .some h
  | cons step rest ih =>
    have hstep := hchild step h fun key hkey => hpath key (hkey ▸ List.mem_cons_self ..)
    rw [at?, at?]
    revert hstep
    generalize v.child? step = below
    generalize w.child? step = below'
    rintro (hbelow | _)
    · exact ih hbelow fun key hkey => hpath key (List.mem_cons_of_mem _ hkey)
    · exact .none

/-- The items of two lists in one place, if the lists are related item by item. -/
theorem getElem?_rel {R : Json → Json → Prop} {vs ws : List Json} (h : List.Forall₂ R vs ws)
    (i : Nat) : Option.Rel R vs[i]? ws[i]? := by
  induction h generalizing i with
  | nil => exact .none
  | cons hfirst _ ih =>
    cases i with
    | zero => exact .some hfirst
    | succ i => exact ih i

end DeclCatalogue.Json
