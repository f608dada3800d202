import DeclCatalogue.Proofs.Catalogue.Replay
import DeclCatalogue.Proofs.Walk.Session

/-!
# The catalogue of a session

After any number of walks and collections the catalogue is what was pushed until then, whatever
trees and nodes the steps were given and however many of them ended with a fault:
`session_catalogue`. `Catalogue.ofPushes` says what that is. Since more steps only add pushes behind,
no step takes anything away or moves it.

A step that fails has pushed what it pushed before the fault, and those pushes count. A push under a
list or an object is refused and is not among the pushes (`perform_usable`).
-/

namespace DeclCatalogue

/-- An event that pushes nothing under a context that cannot be a key. -/
def Event.IsUsable (e : Event) : Prop :=
  ∀ p, e = .pushed p → p.isUsable = true

namespace Walker

variable {w : Walker}

/-! ## Refused pushes -/

theorem collect_usable (collector : Collector) (node context : Json) :
    (w.collect collector node context).Ensures Event.IsUsable (fun _ => True) AnyFault := by
  refine collector_ensures collector node context (fun _ _ h => by cases h)
    (fun _ _ _ h => by cases h) ?_ ?_
  · rintro heading record - hcontext - - _ ⟨⟩
    rw [hcontext]
    rfl
  · rintro p husable - _ ⟨⟩
    exact husable

theorem walkRule_usable (w : Walker) : WalkRule w (fun _ => Event.IsUsable) AnyFault := by
  refine walkRule_uniform (fun _ _ h => by cases h) (fun name => ?_)
    fun collector fields context _ _ _ => collect_usable collector (.obj fields) context
  rintro _ ⟨⟩
  rfl

/-- Nothing is pushed under a context that cannot be a key. -/
theorem perform_usable (w : Walker) (action : Action) :
    (w.perform action).Ensures Event.IsUsable (fun _ => True) AnyFault := by
  cases action with
  | walk tree context => exact tree_ensures (walkRule_usable w) _ tree
  | collect collector node context => exact collect_usable collector node context

/-! ## Sessions -/

/-- What a session has come to after all of its steps. -/
def stateFrom (w : Walker) (state : SessionState) (actions : List Action) : SessionState :=
  ((w.session state actions).getLast?.map (·.2)).getD state

/-- What the steps of a session pushed, one step after the other. -/
def pushesFrom (w : Walker) (state : SessionState) (actions : List Action) : List Push :=
  (w.session state actions).flatMap fun step => Event.pushes step.1.events

variable {state : SessionState} {action : Action} {actions more : List Action}

theorem stateFrom_cons :
    w.stateFrom state (action :: actions) =
      w.stateFrom (state.after (w.perform action state.drawn)) actions := by
  unfold stateFrom
  rw [session, List.getLast?_cons]
  cases (w.session (state.after (w.perform action state.drawn)) actions).getLast? <;> rfl

theorem pushesFrom_cons :
    w.pushesFrom state (action :: actions) =
      Event.pushes (w.perform action state.drawn).events ++
        w.pushesFrom (state.after (w.perform action state.drawn)) actions := by
  unfold pushesFrom
  rw [session, List.flatMap_cons]

/-- More steps go on from where the steps before them stopped. -/
theorem pushesFrom_append :
    w.pushesFrom state (actions ++ more) =
      w.pushesFrom state actions ++ w.pushesFrom (w.stateFrom state actions) more := by
  induction actions generalizing state with
  | nil => rfl
  | cons action rest ih =>
    rw [List.cons_append, pushesFrom_cons, ih, pushesFrom_cons, stateFrom_cons, List.append_assoc]

/-- The pushes of a session are what makes its catalogue. -/
theorem catalogue_stateFrom :
    (w.stateFrom state actions).catalogue = state.catalogue.replay (w.pushesFrom state actions) := by
  induction actions generalizing state with
  | nil => rfl
  | cons action rest ih =>
    rw [stateFrom_cons, ih, pushesFrom_cons, Catalogue.replay_append]
    rfl

theorem pushesFrom_usable : ∀ p ∈ w.pushesFrom state actions, p.isUsable = true := by
  induction actions generalizing state with
  | nil =>
    intro p hp
    cases hp
  | cons action rest ih =>
    intro p hp
    rw [pushesFrom_cons] at hp
    rcases List.mem_append.mp hp with hfirst | hrest
    · exact (perform_usable w action state.drawn).1 _ (mem_pushes hfirst) p rfl
    · exact ih p hrest

/-- **The catalogue is what was pushed to it.** After any steps of a session the catalogue is the
one that the pushes of these steps describe, read off their list alone; no two of its contexts are
equal, and none of its buckets is empty. Whatever steps come behind, its contexts, its namespaces,
its imports and every list of each of its buckets keep what they have, in its place at the front. -/
theorem session_catalogue (w : Walker) (actions more : List Action) :
    let catalogue := (w.stateFrom .initial actions).catalogue
    catalogue = Catalogue.ofPushes (w.pushesFrom .initial actions) ∧
    catalogue.contexts.Pairwise (fun c d => c.same d = false) ∧
    (∀ entry ∈ catalogue.buckets, entry.2.isEmpty = false) ∧
    catalogue.IsPrefixOf (w.stateFrom .initial (actions ++ more)).catalogue := by
  intro catalogue
  have hreplay : ∀ steps, (w.stateFrom .initial steps).catalogue =
      Catalogue.ofPushes (w.pushesFrom .initial steps) := fun steps =>
    catalogue_stateFrom.trans (Catalogue.replay_empty pushesFrom_usable)
  have hcatalogue : catalogue = Catalogue.ofPushes (w.pushesFrom .initial actions) :=
    hreplay actions
  refine ⟨hcatalogue, ?_, fun entry hentry => ?_, ?_⟩
  · rw [hcatalogue, Catalogue.contexts_ofPushes]
    exact Json.distinct_pairwise _
  · rw [hcatalogue] at hentry
    exact Catalogue.ofPushes_not_isEmpty pushesFrom_usable hentry
  · rw [hcatalogue, hreplay, pushesFrom_append]
    exact Catalogue.ofPushes_isPrefixOf _ _

end Walker

end DeclCatalogue
