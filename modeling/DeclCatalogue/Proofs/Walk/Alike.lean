import DeclCatalogue.Walk.Session
import Mathlib.Data.List.Forall2

/-!
# Walks that cannot be told apart

Two steps are alike to an observer if, from any number of tokens drawn before, they report the same
events as far as the observer sees them, draw the same tokens, and end with related values or with
faults of one outline. `Walk.Alike see R v w` says this, where `see` is what the observer sees of an
event and `R` relates the values; the rules below carry it through everything that steps are put
together from.

There are three observers. `some` sees every event as it is. `Event.call` sees no log entries and no
parsing: it tells apart what goes to a catalogue and which exported declarations are reported.
`Event.bare` sees even of these not the node that a declaration keeps. To see neither log entries
nor parsing is to be `Quiet`.

The outline of a fault forgets of the node without a usable name all but the kind, which is all that
the wording of the fault shows of it (`message?_outline`).
-/

namespace DeclCatalogue

namespace Fault

/-- A fault that keeps only the kind of its node. -/
def outline : Fault → Fault
  | .unresolvableName node => .unresolvableName (.obj [("kind", node.field "kind")])
  | fault => fault

theorem message?_outline (fault : Fault) : fault.outline.message? = fault.message? := by
  cases fault with
  | unresolvableName node =>
    have hkind : describe (.obj [("kind", node.field "kind")]) = describe node := by
      unfold describe
      rfl
    simp only [outline, message?, hkind]
  | _ => rfl

end Fault

/-! ## Without nodes -/

/-- A declaration without its node. -/
def Declaration.bare (d : Declaration) : Declaration := { d with node := [] }

/-- A push whose declaration has no node. -/
def Push.bare : Push → Push
  | .declaration heading record context => .declaration heading record.bare context
  | p => p

/-- What is seen of an event without log entries and nodes. -/
def Event.bare : Event → Option Event
  | .pushed p => some (.pushed p.bare)
  | .exported d context => some (.exported d.bare context)
  | .logged _ | .parsed _ => none

/-- What is seen of an event without log entries. -/
def Event.call : Event → Option Event
  | .pushed p => some (.pushed p)
  | .exported d context => some (.exported d context)
  | .logged _ | .parsed _ => none

/-- An observer who sees neither log entries nor what is parsed. -/
structure Event.Quiet (see : Event → Option Event) : Prop where
  logged : ∀ entry, see (.logged entry) = none
  parsed : ∀ grammar, see (.parsed grammar) = none

theorem Event.quiet_bare : Quiet Event.bare := ⟨fun _ => rfl, fun _ => rfl⟩

theorem Event.quiet_call : Quiet Event.call := ⟨fun _ => rfl, fun _ => rfl⟩

theorem Push.bare_isUsable (p : Push) : p.bare.isUsable = p.isUsable := by
  cases p <;> rfl

/-- The pushes that are seen without nodes. -/
theorem Event.pushes_bare (events : List Event) :
    Event.pushes (events.filterMap Event.bare) = (Event.pushes events).map Push.bare := by
  induction events with
  | nil => rfl
  | cons e rest ih =>
    cases e with
    | pushed p => exact congrArg (p.bare :: ·) ih
    | exported d context => exact ih
    | logged entry => exact ih
    | parsed grammar => exact ih

/-- The reports of exported declarations that are seen without nodes. -/
theorem Event.exports_bare (events : List Event) :
    Event.exports (events.filterMap Event.bare) =
      (Event.exports events).map fun e => (e.1.bare, e.2) := by
  induction events with
  | nil => rfl
  | cons e rest ih =>
    cases e with
    | pushed p => exact ih
    | exported d context => exact congrArg ((d.bare, context) :: ·) ih
    | logged entry => exact ih
    | parsed grammar => exact ih

/-- The pushes that are seen without log entries. -/
theorem Event.pushes_call (events : List Event) :
    Event.pushes (events.filterMap Event.call) = Event.pushes events := by
  unfold Event.pushes
  rw [List.filterMap_filterMap]
  exact List.filterMap_congr fun e _ => by cases e <;> rfl

/-- The reports that are seen without log entries. -/
theorem Event.exports_call (events : List Event) :
    Event.exports (events.filterMap Event.call) = Event.exports events := by
  unfold Event.exports
  rw [List.filterMap_filterMap]
  exact List.filterMap_congr fun e _ => by cases e <;> rfl

namespace Walk

variable {α β γ δ : Type}

/-- Two results that are alike: related values, or faults of one outline. -/
def ResultsAlike (R : α → β → Prop) : Except Fault α → Except Fault β → Prop
  | .ok a, .ok b => R a b
  | .error f, .error g => f.outline = g.outline
  | _, _ => False

/-- Two steps that an observer cannot tell apart. -/
def Alike (see : Event → Option Event) (R : α → β → Prop) (v : Walk α) (w : Walk β) : Prop :=
  ∀ drawn, (v drawn).events.filterMap see = (w drawn).events.filterMap see ∧
    (v drawn).drawn = (w drawn).drawn ∧ ResultsAlike R (v drawn).result (w drawn).result

/-- Nothing happens after a fault. -/
theorem fail_bind (fault : Fault) (next : α → Walk β) : (fail fault >>= next) = fail fault := rfl

theorem ofChecked_valid (subject : String) (a : α) :
    ofChecked subject (.valid a) = (pure a : Walk α) := rfl

variable {see : Event → Option Event} {R : α → β → Prop} {S : γ → δ → Prop}

theorem ResultsAlike.eq_ok {x : Except Fault α} {a : α} (h : ResultsAlike Eq x (.ok a)) :
    x = .ok a := by
  cases x with
  | ok b => exact congrArg _ h
  | error fault => exact h.elim

/-- Of results that are alike the outlines are the same. -/
theorem ResultsAlike.mapError_eq {x y : Except Fault α} (h : ResultsAlike Eq x y) :
    x.mapError Fault.outline = y.mapError Fault.outline := by
  cases x with
  | ok a =>
    cases y with
    | ok b => exact congrArg Except.ok h
    | error other => exact h.elim
  | error fault =>
    cases y with
    | ok b => exact h.elim
    | error other => exact congrArg Except.error h

theorem ResultsAlike.eq_error {x : Except Fault α} {fault : Fault}
    (h : ResultsAlike R x (.error fault)) :
    ∃ other, x = .error other ∧ other.outline = fault.outline := by
  cases x with
  | ok a => exact h.elim
  | error other => exact ⟨other, rfl, h⟩

/-! ## Rules -/

theorem alike_refl (v : Walk α) : v.Alike see Eq v := by
  intro drawn
  refine ⟨rfl, rfl, ?_⟩
  cases (v drawn).result with
  | ok a => exact rfl
  | error fault => exact rfl

theorem Alike.symm {v w : Walk α} (h : v.Alike see Eq w) : w.Alike see Eq v := by
  intro drawn
  obtain ⟨hevents, hdrawn, hresult⟩ := h drawn
  refine ⟨hevents.symm, hdrawn.symm, ?_⟩
  cases hv : (v drawn).result <;> cases hw : (w drawn).result <;> rw [hv, hw] at hresult
  · exact Eq.symm hresult
  · exact hresult.elim
  · exact hresult.elim
  · exact Eq.symm hresult

theorem Alike.trans {u v w : Walk α} (h : u.Alike see Eq v) (k : v.Alike see Eq w) :
    u.Alike see Eq w := by
  intro drawn
  obtain ⟨hevents, hdrawn, hresult⟩ := h drawn
  obtain ⟨kevents, kdrawn, kresult⟩ := k drawn
  refine ⟨hevents.trans kevents, hdrawn.trans kdrawn, ?_⟩
  cases hu : (u drawn).result <;> cases hv : (v drawn).result <;>
    cases hw : (w drawn).result <;> rw [hu, hv] at hresult <;> rw [hv, hw] at kresult
  · exact Eq.trans hresult kresult
  · exact kresult.elim
  · exact hresult.elim
  · exact hresult.elim
  · exact hresult.elim
  · exact hresult.elim
  · exact kresult.elim
  · exact Eq.trans hresult kresult

/-- What cannot be told apart by one who sees everything cannot be told apart by anyone. -/
theorem Alike.seen {v : Walk α} {w : Walk β} (h : v.Alike some R w) : v.Alike see R w := by
  intro drawn
  obtain ⟨hevents, hdrawn, hresult⟩ := h drawn
  rw [List.filterMap_some, List.filterMap_some] at hevents
  exact ⟨congrArg _ hevents, hdrawn, hresult⟩

theorem alike_pure {a : α} {b : β} (h : R a b) :
    (pure a : Walk α).Alike see R (pure b : Walk β) :=
  fun _ => ⟨rfl, rfl, h⟩

theorem alike_fail {f g : Fault} (h : f.outline = g.outline) :
    (fail f : Walk α).Alike see R (fail g : Walk β) :=
  fun _ => ⟨rfl, rfl, h⟩

/-- **Steps in a row.** What is alike step by step is alike as a whole. -/
theorem Alike.bind {v : Walk α} {w : Walk β} {f : α → Walk γ} {g : β → Walk δ}
    (h : v.Alike see R w) (hnext : ∀ a b, R a b → (f a).Alike see S (g b)) :
    (v >>= f).Alike see S (w >>= g) := by
  intro drawn
  obtain ⟨hevents, hdrawn, hresult⟩ := h drawn
  cases hv : (v drawn).result with
  | error fault =>
    cases hw : (w drawn).result with
    | error other =>
      rw [hv, hw] at hresult
      rw [bind_apply_error hv, bind_apply_error hw]
      exact ⟨hevents, hdrawn, hresult⟩
    | ok b => rw [hv, hw] at hresult; exact hresult.elim
  | ok a =>
    cases hw : (w drawn).result with
    | error other => rw [hv, hw] at hresult; exact hresult.elim
    | ok b =>
      rw [hv, hw] at hresult
      obtain ⟨kevents, kdrawn, kresult⟩ := hnext a b hresult (v drawn).drawn
      rw [bind_apply_ok hv, bind_apply_ok hw, ← hdrawn]
      refine ⟨?_, kdrawn, kresult⟩
      simp only [List.filterMap_append, hevents, kevents]

/-- The same step after steps that are alike. -/
theorem Alike.then {v w : Walk α} (h : v.Alike see Eq w) (next : α → Walk γ) :
    (v >>= next).Alike see Eq (w >>= next) := by
  refine h.bind fun a b heq => ?_
  rw [heq]
  exact alike_refl _

theorem alike_emit {e f : Event} (h : see e = see f) :
    (emit e).Alike see Eq (emit f) := by
  intro drawn
  refine ⟨?_, rfl, rfl⟩
  simp only [emit, List.filterMap_cons, h, List.filterMap_nil]

/-- An event that is not seen leaves no trace. -/
theorem Alike.skip {e : Event} {v : Walk α} {w : Walk β} (hsee : see e = none)
    (h : v.Alike see R w) : (do emit e; v).Alike see R w := by
  intro drawn
  obtain ⟨hevents, hdrawn, hresult⟩ := h drawn
  rw [bind_apply_ok (a := ()) rfl]
  refine ⟨?_, hdrawn, hresult⟩
  simp only [emit, List.filterMap_append, List.filterMap_cons, hsee, List.filterMap_nil,
    List.nil_append]
  exact hevents

theorem alike_forEach {f : α → Walk Unit} {g : β → Walk Unit} {xs : List α} {ys : List β}
    (h : List.Forall₂ (fun x y => (f x).Alike see Eq (g y)) xs ys) :
    (forEach f xs).Alike see Eq (forEach g ys) := by
  induction h with
  | nil => exact alike_refl _
  | cons hxy _ ih => exact hxy.bind fun _ _ _ => ih

/-! ## Without log entries and nodes -/

theorem alike_push {p q : Push} (h : p.bare = q.bare) : (push p).Alike Event.bare Eq (push q) := by
  have husable : p.isUsable = q.isUsable := by
    rw [← Push.bare_isUsable p, h, Push.bare_isUsable]
  unfold push
  rw [husable]
  split
  · refine alike_emit ?_
    show some (Event.pushed p.bare) = some (Event.pushed q.bare)
    rw [h]
  · exact alike_refl _

/-- A log entry leaves no trace. -/
theorem Alike.unlogged {level : LogLevel} {event : String} {fields : Fields} {v : Walk α}
    {w : Walk β} (h : v.Alike Event.bare R w) :
    (do log level event fields; v).Alike Event.bare R w :=
  h.skip rfl

end Walk

end DeclCatalogue
