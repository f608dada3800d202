import DeclCatalogue.Proofs.Json.Objects
import DeclCatalogue.Proofs.Walk.Congruence

/-!
# Properties that go along a walk

`Walk.Ensures` speaks of one event at a time. What a walk reports as a whole, and what it comes to,
is a matter of how its steps follow each other. `Walker.SequenceRule` lists the steps that walks are
made of: if a property goes through each of them and from two steps to one after the other, then
walking any value has it (`walk_sequence`), and so has walking a tree (`tree_sequence`).
-/

namespace DeclCatalogue.Walker

open Json (lookup)

/-- What is to be shown of the steps of a walk so that the walk has the property. -/
structure SequenceRule (w : Walker) (P : Walk Unit → Prop) : Prop where
  done : P (pure ())
  next : ∀ {u v : Walk Unit}, P u → P v → P (do u; v)
  /-- The kind of a value is asked for. -/
  kind : ∀ (v : Json) {after : Option String → Walk Unit}, (∀ kind, P (after kind)) →
    P (Walk.ofExcept (w.kinds.kindName v) >>= after)
  /-- A walk itself logs for debugging only. -/
  logged : ∀ event fields, P (Walk.log .debug event fields)
  collect : ∀ collector fields context, P (w.collect collector (.obj fields) context)
  /-- A module is entered. -/
  enter : ∀ (fields : Fields) (context : Json) {after : Json × Json → Walk Unit},
    (∀ entered, P (after entered)) → P (w.enterModule fields context >>= after)
  /-- There is nothing to walk. -/
  noList : ∀ kind, P (Walk.fail (.noStatementList kind))

variable {w : Walker} {P : Walk Unit → Prop}

theorem noStatements_sequence (rule : SequenceRule w P) (v : Json) : P (w.noStatements v) :=
  rule.kind v rule.noList

theorem statements_sequence (rule : SequenceRule w P) {context : Json} {vs : List Json}
    (h : ∀ v ∈ vs, P (w.statement context v)) : P (w.statements context vs) := by
  induction vs with
  | nil => exact rule.done
  | cons v rest ih =>
    rw [statements]
    exact rule.next (h v (List.mem_cons_self ..)) (ih fun u hu => h u (List.mem_cons_of_mem _ hu))

/-- The body of a module, given the walks of what stands there. -/
theorem moduleBody_sequence (rule : SequenceRule w P) {fields : Fields}
    (hstatement : ∀ context, P (w.statement context (lookup "body" fields)))
    (htree : ∀ context, P (w.tree context (lookup "body" fields))) (entered : Json × Json) :
    P (w.moduleBody fields entered) := by
  unfold moduleBody
  by_cases hbody : (lookup "body" fields).truthy = true
  · rw [if_pos hbody, bodyIn_eq w entered.2 fields hbody]
    refine rule.next (rule.logged ..) (rule.kind _ fun kind => ?_)
    split
    · exact hstatement entered.2
    · exact htree entered.2
  · rw [if_neg hbody]
    exact rule.done

/-- A value as a statement, as a tree, and what is listed in it. -/
private theorem walk_sequence (rule : SequenceRule w P) (v : Json) :
    (∀ context, P (w.statement context v)) ∧ (∀ context, P (w.tree context v)) ∧
      ∀ vs, v = .arr vs → ∀ u ∈ vs, ∀ context, P (w.statement context u) := by
  induction v using Json.induct_lookup with
  | obj fields ih =>
    refine ⟨fun context => ?_, fun context => ?_, fun vs h => by cases h⟩
    · rw [statement_obj]
      refine rule.kind _ fun kind => ?_
      unfold dispatch
      split
      · exact rule.logged ..
      · exact rule.collect ..
      · exact rule.enter fields context (moduleBody_sequence rule (ih "body").1 (ih "body").2.1)
    · rw [tree_obj]
      cases hlist : lookup "statements" fields with
      | arr vs => exact statements_sequence rule fun u hu => (ih "statements").2.2 vs hlist u hu _
      | _ => exact noStatements_sequence rule _
  | arr vs ih =>
    refine ⟨fun context => rule.logged .., fun context => noStatements_sequence rule _, ?_⟩
    intro us h u hu context
    obtain rfl := Json.arr.inj h
    exact (ih u hu).1 context
  | _ =>
    exact ⟨fun context => rule.logged .., fun context => noStatements_sequence rule _,
      fun vs h => by cases h⟩

/-- Walking a tree has every property that goes along walks. -/
theorem tree_sequence (rule : SequenceRule w P) (context v : Json) : P (w.tree context v) :=
  (walk_sequence rule v).2.1 context

end DeclCatalogue.Walker
