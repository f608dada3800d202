import DeclCatalogue.Walk.Statements

/-!
# Sessions

A session is a sequence of walks and single collections into one catalogue. Each step starts from
what the steps before it left: the catalogue, and the number of tokens drawn. A step that ends with
a fault keeps what it did before, and the session goes on.
-/

namespace DeclCatalogue

/-- One step of a session. -/
inductive Action where
  /-- Walks a tree, under the root context unless another one is given. -/
  | walk (tree : Json) (context : Option Json)
  /-- Gives a node to a collector. -/
  | collect (collector : Collector) (node : Json) (context : Json)
  deriving DecidableEq, Repr

/-- What a session has come to. -/
structure SessionState where
  catalogue : Catalogue
  drawn : Nat
  deriving DecidableEq, Repr

namespace SessionState

/-- The start of a session. -/
def initial : SessionState := ⟨Catalogue.empty, 0⟩

/-- What is left after an outcome: its pushes are in the catalogue. -/
def after (state : SessionState) (outcome : Outcome Unit) : SessionState :=
  ⟨state.catalogue.replay (Event.pushes outcome.events), outcome.drawn⟩

end SessionState

namespace Walker

/-- The step that an action stands for. -/
def perform (w : Walker) : Action → Walk Unit
  | .walk tree context => w.walk tree context
  | .collect collector node context => w.collect collector node context

/-- Runs a session: the outcome of each step with the state after it. -/
def session (w : Walker) (state : SessionState) :
    List Action → List (Outcome Unit × SessionState)
  | [] => []
  | action :: rest =>
    let outcome := w.perform action state.drawn
    let next := state.after outcome
    (outcome, next) :: w.session next rest

end Walker

end DeclCatalogue
