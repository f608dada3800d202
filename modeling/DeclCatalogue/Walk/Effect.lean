import DeclCatalogue.Catalogue.Basic
import DeclCatalogue.Log

/-!
# What a walk does

A walk reports what it does as a list of events: records pushed to a catalogue, exported
declarations, log entries and sources parsed. It draws tokens, numbered in order, for names that it
has to make up, and it ends with a value or a fault; the events before a fault are kept.

`Walk` is the type of such steps. One step after another gives the events of both, the second one
drawing its tokens where the first one stopped; after a fault nothing happens any more.
-/

namespace DeclCatalogue

/-- The two variants of the language that a source can be parsed as. -/
inductive Grammar where
  | plain | withJsx
  deriving DecidableEq, Repr

/-- What a walk lets the outside know. -/
inductive Event where
  /-- A record goes to the catalogue. -/
  | pushed (push : Push)
  /-- A declaration carries an export modifier. -/
  | exported (declaration : Declaration) (context : Json)
  | logged (entry : LogEntry)
  /-- A source is given to the parser. -/
  | parsed (grammar : Grammar)
  deriving DecidableEq, Repr

/-- The end of a step: its events, the number of tokens drawn so far, and its value or fault. -/
structure Outcome (α : Type) where
  events : List Event
  drawn : Nat
  result : Except Fault α

/-- A step of a walk. It is given the number of tokens drawn before it. -/
def Walk (α : Type) : Type := Nat → Outcome α

namespace Walk

variable {α β : Type}

/-- The step that does nothing. -/
protected def pure (a : α) : Walk α := fun drawn => ⟨[], drawn, .ok a⟩

/-- One step and, unless it ends with a fault, the next. -/
protected def bind (first : Walk α) (next : α → Walk β) : Walk β := fun drawn =>
  let before := first drawn
  match before.result with
  | .error fault => ⟨before.events, before.drawn, .error fault⟩
  | .ok a =>
    let after := next a before.drawn
    ⟨before.events ++ after.events, after.drawn, after.result⟩

instance : Monad Walk where
  pure := Walk.pure
  bind := Walk.bind

/-- Ends the walk. -/
def fail (fault : Fault) : Walk α := fun drawn => ⟨[], drawn, .error fault⟩

/-- A result that needs no step. -/
def ofExcept (result : Except Fault α) : Walk α := fun drawn => ⟨[], drawn, result⟩

/-- What a check accepts; the report of what it does not is a fault. -/
def ofChecked (subject : String) (checked : Checked α) : Walk α :=
  ofExcept ((checked.toExcept subject).mapError .invalid)

/-- One event. -/
def emit (event : Event) : Walk Unit := fun drawn => ⟨[event], drawn, .ok ()⟩

/-- A log entry. -/
def log (level : LogLevel) (event : String) (fields : Fields) : Walk Unit :=
  emit (.logged ⟨level, event, fields⟩)

/-- A record for the catalogue; a fault if its context cannot be one. -/
def push (p : Push) : Walk Unit :=
  if p.isUsable then emit (.pushed p) else fail .unusableKey

/-- Draws a token: its count, from one on. -/
def token : Walk Nat := fun drawn => ⟨[], drawn + 1, .ok (drawn + 1)⟩

/-- The same step for each item of a list, in order. -/
def forEach (step : α → Walk Unit) : List α → Walk Unit
  | [] => pure ()
  | a :: rest => do
    step a
    forEach step rest

/-! ## How steps combine -/

theorem ext {v w : Walk α} (h : ∀ drawn, v drawn = w drawn) : v = w := funext h

@[simp] theorem pure_apply (a : α) (drawn : Nat) : (pure a : Walk α) drawn = ⟨[], drawn, .ok a⟩ :=
  rfl

theorem ofExcept_ok (a : α) : ofExcept (.ok a) = (pure a : Walk α) := rfl

theorem bind_apply_ok {first : Walk α} {next : α → Walk β} {drawn : Nat} {a : α}
    (h : (first drawn).result = .ok a) :
    (first >>= next) drawn =
      ⟨(first drawn).events ++ (next a (first drawn).drawn).events,
        (next a (first drawn).drawn).drawn, (next a (first drawn).drawn).result⟩ := by
  show Walk.bind first next drawn = _
  simp [Walk.bind, h]

theorem bind_apply_error {first : Walk α} {next : α → Walk β} {drawn : Nat} {fault : Fault}
    (h : (first drawn).result = .error fault) :
    (first >>= next) drawn = ⟨(first drawn).events, (first drawn).drawn, .error fault⟩ := by
  show Walk.bind first next drawn = _
  simp [Walk.bind, h]

instance : LawfulMonad Walk := LawfulMonad.mk' Walk
  (fun w => by
    funext drawn
    show Walk.bind w (fun a => Walk.pure a) drawn = w drawn
    simp only [Walk.bind, Walk.pure]
    split <;> rename_i h
    · rw [← h]
    · rw [← h]; simp)
  (fun a next => by
    funext drawn
    show Walk.bind (Walk.pure a) next drawn = next a drawn
    simp [Walk.bind, Walk.pure])
  (fun first next last => by
    funext drawn
    show Walk.bind (Walk.bind first next) last drawn
      = Walk.bind first (fun a => Walk.bind (next a) last) drawn
    simp only [Walk.bind]
    cases h : (first drawn).result with
    | error fault => simp
    | ok a =>
      simp only
      cases k : (next a (first drawn).drawn).result <;> simp)

theorem forEach_append (step : α → Walk Unit) (xs ys : List α) :
    forEach step (xs ++ ys) = (do forEach step xs; forEach step ys) := by
  induction xs with
  | nil => simp [forEach]
  | cons x xs ih => simp [forEach, ih]

end Walk

/-! ## What is seen of the events -/

namespace Event

/-- The pushes among the events. -/
def pushes (events : List Event) : List Push :=
  events.filterMap fun
    | .pushed p => some p
    | _ => none

/-- The exported declarations among the events, with their contexts. -/
def exports (events : List Event) : List (Declaration × Json) :=
  events.filterMap fun
    | .exported d context => some (d, context)
    | _ => none

/-- The log entries among the events. -/
def log (events : List Event) : List LogEntry :=
  events.filterMap fun
    | .logged entry => some entry
    | _ => none

/-- The grammars that sources were parsed with, in order. -/
def grammars (events : List Event) : List Grammar :=
  events.filterMap fun
    | .parsed g => some g
    | _ => none

@[simp] theorem pushes_append (es fs : List Event) : pushes (es ++ fs) = pushes es ++ pushes fs :=
  List.filterMap_append

@[simp] theorem exports_append (es fs : List Event) :
    exports (es ++ fs) = exports es ++ exports fs :=
  List.filterMap_append

@[simp] theorem log_append (es fs : List Event) : log (es ++ fs) = log es ++ log fs :=
  List.filterMap_append

end Event

end DeclCatalogue
