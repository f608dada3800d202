import DeclCatalogue.Proofs.Walk.Alike
import DeclCatalogue.Proofs.Walk.Ensures

/-!
# A step as an observer sees it

`Walk.seen see u` is the step `u` in the eyes of an observer: of its events there is what `see`
makes of them, and nothing of those that `see` drops. The tokens that it draws and its end are the
same.

Seeing goes through everything that steps are put together from: a row of steps is seen as the row
of the steps as they are seen (`seen_bind`). So two walks are shown to be seen alike by rewriting,
with equations between steps; where `Walk.Alike` relates the ends up to an outline, what is seen of
two steps is equal, node and all.
-/

namespace DeclCatalogue

namespace Walk

variable {α β : Type} {see : Event → Option Event}

/-- The step with its events as they are seen. -/
def seen (see : Event → Option Event) (u : Walk α) : Walk α := fun drawn =>
  ⟨(u drawn).events.filterMap see, (u drawn).drawn, (u drawn).result⟩

/-- An event that is dropped is no step at all. -/
theorem seen_emit_none {e : Event} (h : see e = none) : (emit e).seen see = pure () := by
  funext drawn
  simp only [seen, emit, List.filterMap_cons, h, List.filterMap_nil, pure_apply]

/-- **A row of steps is seen as a row of what is seen.** -/
theorem seen_bind (u : Walk α) (next : α → Walk β) :
    (u >>= next).seen see = u.seen see >>= fun a => (next a).seen see := by
  funext drawn
  show Outcome.mk _ _ _ = _
  cases hr : (u drawn).result with
  | error fault =>
    have hseen : (u.seen see drawn).result = .error fault := hr
    rw [bind_apply_error hr, bind_apply_error hseen]
    rfl
  | ok a =>
    have hseen : (u.seen see drawn).result = .ok a := hr
    rw [bind_apply_ok hr, bind_apply_ok hseen, List.filterMap_append]
    rfl

/-- Steps that are seen alike, followed by steps that are seen alike. -/
theorem seen_bind_congr {see' : Event → Option Event} {u v : Walk α} {f g : α → Walk β}
    (h : u.seen see = v.seen see') (hnext : ∀ a, (f a).seen see = (g a).seen see') :
    (u >>= f).seen see = (v >>= g).seen see' := by
  rw [seen_bind, seen_bind, h]
  exact bind_congr hnext

theorem seen_forEach_congr {see' : Event → Option Event} {f g : α → Walk Unit} {xs : List α}
    (h : ∀ x ∈ xs, (f x).seen see = (g x).seen see') :
    (forEach f xs).seen see = (forEach g xs).seen see' := by
  induction xs with
  | nil => rfl
  | cons x rest ih =>
    refine seen_bind_congr (h x (List.mem_cons_self ..)) fun _ => ?_
    exact ih fun y hy => h y (List.mem_cons_of_mem _ hy)

/-- Two observers who see the same of each event that a step can report see the same step. -/
theorem Ensures.seen_eq {see' : Event → Option Event} {u : Walk α} {R : α → Prop} {F : Fault → Prop}
    (h : u.Ensures (fun e => see e = see' e) R F) : u.seen see = u.seen see' := by
  funext drawn
  show Outcome.mk _ _ _ = Outcome.mk _ _ _
  rw [List.filterMap_congr (h drawn).1]

/-- What is seen alike ends alike: the same is seen, the same tokens are drawn, and the end is the
same, fault and node included. -/
theorem seen_apply {see' : Event → Option Event} {u v : Walk α} (h : u.seen see = v.seen see')
    (drawn : Nat) : (u drawn).events.filterMap see = (v drawn).events.filterMap see' ∧
      (u drawn).drawn = (v drawn).drawn ∧ (u drawn).result = (v drawn).result :=
  Outcome.mk.inj (congrFun h drawn)

end Walk

end DeclCatalogue
