import DeclCatalogue.Proofs.Walk.Congruence
import DeclCatalogue.Proofs.Walk.Seen
import Mathlib.Logic.Relation

/-!
# Statements that are passed over

A walk passes over a value in a list of statements if the kind of the value has a name, or there is
no kind, and the name is none of a statement that is recorded or walked into. `Walker.Inserted` puts
one such value into one list that the walk comes to, at any place: into the list of the tree, or
into the list of a module body at any depth.

Nobody but a reader of the log can tell: `walk_passedOver` says that trees which differ by any
number of such insertions and deletions are walked with the same pushes and reports, and to the same
end. Of the log only the entries about skipped statements are not the same.

What carries the proof is that steps in a row are seen as the row of what is seen. An insertion
changes one step of one row, and that step is not seen (`statement_passedOver`).
-/

namespace DeclCatalogue

open Json (lookup setField)

/-- Whether a log entry is about a statement that is passed over. -/
def LogEntry.isSkip (entry : LogEntry) : Bool :=
  entry.level = .debug && entry.event = "Skipping statement"

/-- What is seen of an event by one who does not read of statements that are passed over. -/
def Event.unskipped : Event → Option Event
  | .logged entry => if entry.isSkip then none else some (.logged entry)
  | e => some e

/-- The pushes and reports are all seen. -/
theorem Event.call_unskipped (events : List Event) :
    (events.filterMap Event.unskipped).filterMap Event.call = events.filterMap Event.call := by
  rw [List.filterMap_filterMap]
  refine List.filterMap_congr fun e _ => ?_
  cases e with
  | logged entry =>
    show (if entry.isSkip then none else some (Event.logged entry)).bind Event.call = none
    by_cases hskip : entry.isSkip = true
    · rw [if_pos hskip]
      rfl
    · rw [if_neg hskip]
      rfl
  | _ => rfl

namespace Walker

variable {w : Walker}

/-- A value that is no statement to a walk: it has no kind, or the name of its kind is none of a
statement that is recorded or walked into. A kind that has no name, as a list has none, ends the
walk and is not passed over. -/
def PassesOver (w : Walker) (v : Json) : Prop :=
  ∃ kind, w.kinds.kindName v = .ok kind ∧ kind.bind StatementKind.ofName? = none

/-- `w.Inserted role u v`: the value `v` is `u` with one more value in one of the lists that a walk
of `u` comes to, a value that it passes over. The walk comes to the list of a tree, and to what
stands in the body of a module that has a name. -/
inductive Inserted (w : Walker) : Role → Json → Json → Prop where
  | here {fields : Fields} (before after : List Json) {v : Json}
      (list : lookup "statements" fields = .arr (before ++ after)) (passed : w.PassesOver v) :
      Inserted w .tree (.obj fields)
        (.obj (setField "statements" (.arr (before ++ v :: after)) fields))
  | listed {fields : Fields} (before after : List Json) {u v : Json}
      (list : lookup "statements" fields = .arr (before ++ u :: after))
      (within : Inserted w .statement u v) :
      Inserted w .tree (.obj fields)
        (.obj (setField "statements" (.arr (before ++ v :: after)) fields))
  | body {fields : Fields} (kind : Option String) {v : Json}
      (module : w.kinds.kindName (.obj fields) = .ok (some SyntaxKind.moduleDeclaration.name))
      (named : Node.identifierText (lookup "name" fields) ≠ none)
      (kindName : w.kinds.kindName (lookup "body" fields) = .ok kind)
      (within : Inserted w (bodyRole kind) (lookup "body" fields) v) :
      Inserted w .statement (.obj fields) (.obj (setField "body" v fields))

/-! ## What an insertion keeps -/

/-- Setting a field other than the kind leaves the name of the kind. -/
theorem kindName_setField {key : String} (h : "kind" ≠ key) (value : Json) (fields : Fields) :
    w.kinds.kindName (.obj (setField key value fields)) = w.kinds.kindName (.obj fields) := by
  rw [KindTable.kindName, KindTable.kindName, Json.lookup_setField_of_ne h]

namespace Inserted

variable {role : Role} {u v : Json}

theorem kindName_eq (h : w.Inserted role u v) : w.kinds.kindName v = w.kinds.kindName u := by
  cases h with
  | here before after list passed => exact kindName_setField (by decide) _ _
  | listed before after list within => exact kindName_setField (by decide) _ _
  | body kind module named kindName within => exact kindName_setField (by decide) _ _

/-- A value into which something can be inserted is there, and it is there afterwards. -/
theorem truthy (h : w.Inserted role u v) : u.truthy = true ∧ v.truthy = true := by
  induction h with
  | here before after list passed =>
    refine ⟨Json.truthy_of_lookup "statements" ?_, Json.truthy_of_lookup "statements" ?_⟩
    · rw [list]
      exact Json.noConfusion
    · rw [Json.lookup_setField_self]
      exact Json.noConfusion
  | listed before after list within ih =>
    refine ⟨Json.truthy_of_lookup "statements" ?_, Json.truthy_of_lookup "statements" ?_⟩
    · rw [list]
      exact Json.noConfusion
    · rw [Json.lookup_setField_self]
      exact Json.noConfusion
  | body kind module named kindName within ih =>
    refine ⟨Json.truthy_of_lookup "body" ?_, Json.truthy_of_lookup "body" ?_⟩
    · intro hnull
      rw [hnull] at ih
      cases ih.1
    · rw [Json.lookup_setField_self]
      intro hnull
      rw [hnull] at ih
      cases ih.2

end Inserted

/-! ## What is seen of the walks -/

/-- Nothing is seen of a value that is passed over. -/
theorem statement_passedOver {v : Json} (h : w.PassesOver v) (context : Json) :
    (w.statement context v).seen Event.unskipped = pure () := by
  obtain ⟨kind, hkind, hstep⟩ := h
  have hskip : ∀ kind, (skip kind context).seen Event.unskipped = pure () :=
    fun _ => Walk.seen_emit_none rfl
  cases v with
  | obj fields =>
    rw [statement_obj, hkind, Walk.ofExcept_ok, pure_bind]
    unfold dispatch
    rw [hstep]
    exact hskip kind
  | _ => exact hskip none

/-- A module that has a name is entered alike whatever its body. -/
theorem enterModule_setField {fields : Fields}
    (hnamed : Node.identifierText (lookup "name" fields) ≠ none) (body context : Json) :
    w.enterModule (setField "body" body fields) context = w.enterModule fields context := by
  unfold enterModule
  rw [Json.lookup_setField_of_ne (by decide), Json.lookup_setField_of_ne (by decide)]
  cases hname : Node.identifierText (lookup "name" fields) with
  | none => exact absurd hname hnamed
  | some name => rfl

/-- **One insertion is not seen.** -/
theorem Inserted.seen {role : Role} {u v : Json} (h : w.Inserted role u v) :
    ∀ context, (w.walkAs context role v).seen Event.unskipped =
      (w.walkAs context role u).seen Event.unskipped := by
  -- on the way that the walk takes to the list in which the value is inserted
  induction h with
  | @here fields before after v list passed =>
    intro context
    show (w.tree context _).seen _ = (w.tree context _).seen _
    rw [tree_obj, tree_obj, list, Json.lookup_setField_self]
    show (w.statements context _).seen _ = (w.statements context _).seen _
    rw [statements_append, statements_append, statements]
    refine Walk.seen_bind_congr rfl fun _ => ?_
    rw [Walk.seen_bind, statement_passedOver passed, pure_bind]
  | @listed fields before after u v list within ih =>
    intro context
    show (w.tree context _).seen _ = (w.tree context _).seen _
    rw [tree_obj, tree_obj, list, Json.lookup_setField_self]
    show (w.statements context _).seen _ = (w.statements context _).seen _
    rw [statements_append, statements_append, statements, statements]
    refine Walk.seen_bind_congr rfl fun _ => ?_
    exact Walk.seen_bind_congr (ih context) fun _ => rfl
  | @body fields kind v module named kindName within ih =>
    intro context
    show (w.statement context _).seen _ = (w.statement context _).seen _
    have hstep : (some SyntaxKind.moduleDeclaration.name).bind StatementKind.ofName? =
        some .module := rfl
    rw [statement_obj, statement_obj, kindName_setField (by decide), module, Walk.ofExcept_ok,
      pure_bind, pure_bind]
    unfold dispatch
    rw [hstep]
    dsimp only
    rw [enterModule_setField named]
    refine Walk.seen_bind_congr rfl fun entered => ?_
    have hset : lookup "body" (setField "body" v fields) = v := Json.lookup_setField_self ..
    rw [moduleBody_eq w within.truthy.1, moduleBody_eq w (hset.symm ▸ within.truthy.2), hset,
      within.kindName_eq, kindName]
    refine Walk.seen_bind_congr rfl fun _ => ?_
    rw [Walk.ofExcept_ok, pure_bind, pure_bind]
    exact ih entered.2

end Walker

end DeclCatalogue
