import DeclCatalogue.Proofs.Walk.Reports

/-!
# Collectors that push all or nothing

Declarations, variables and exports are shaped as a whole before the first of them is pushed:
whatever is wrong with a node, be it a name that is missing, a value of the wrong shape or a record
that does not pass its check, is found before anything is told to the catalogue or to a listener.
Behind that, only the pushes are left, and under a context that can be a key no push fails.

`Walk.AllOrNothing` says of a step that it makes no push and no report unless it ends well. Steps
that are silent come first and pushes that cannot fail come last, and `Ensures.allOrNothing` puts
the two together. `collect_failed` is what follows for a collector that fails: nothing is left of
it. Imports are not among them: they are pushed name by name, and the names before a bad one stay.
-/

namespace DeclCatalogue

open Json (lookup)

namespace Walk

variable {α β : Type}

/-- A step that makes no push and no report unless it ends well. -/
def AllOrNothing (u : Walk α) : Prop :=
  ∀ drawn fault, (u drawn).result = .error fault → (u drawn).events.filterMap Event.call = []

/-- What never fails has nothing to take back. -/
theorem allOrNothing_of_ok {u : Walk α} (h : ∀ drawn, ∃ a, (u drawn).result = .ok a) :
    u.AllOrNothing := by
  intro drawn fault hfault
  obtain ⟨a, hok⟩ := h drawn
  rw [hok] at hfault
  cases hfault

theorem allOrNothing_fail (fault : Fault) : (fail fault : Walk α).AllOrNothing :=
  fun _ _ _ => rfl

/-- **Silent steps first.** Behind a step that makes neither pushes nor reports, all or nothing
stays all or nothing. -/
theorem Ensures.allOrNothing {u : Walk α} {next : α → Walk β} {R : α → Prop} {F : Fault → Prop}
    (hu : u.Ensures (fun e => e.call = none) R F) (hnext : ∀ a, R a → (next a).AllOrNothing) :
    (u >>= next).AllOrNothing := by
  intro drawn fault hfault
  obtain ⟨hevents, hvalue, -⟩ := hu drawn
  have hsilent : (u drawn).events.filterMap Event.call = [] := List.filterMap_eq_nil_iff.mpr hevents
  cases hr : (u drawn).result with
  | error other =>
    rw [bind_apply_error hr]
    exact hsilent
  | ok a =>
    rw [bind_apply_ok hr] at hfault ⊢
    rw [List.filterMap_append, hsilent, List.nil_append]
    exact hnext a (hvalue a hr) _ fault hfault

/-- What needs no step is silent. -/
theorem ofExcept_silent (result : Except Fault α) :
    (ofExcept result).Ensures (fun e => e.call = none) (fun _ => True) (fun _ => True) :=
  ensures_ofExcept (fun _ _ => trivial) fun _ _ => trivial

/-- Pushes under contexts that can be keys do not fail. -/
theorem forEach_push_ok {p : α → Push} (h : ∀ a, (p a).isUsable = true) (xs : List α)
    (drawn : Nat) : (forEach (fun a => push (p a)) xs drawn).result = .ok () := by
  induction xs with
  | nil => rfl
  | cons x rest ih =>
    have hpush : push (p x) = emit (.pushed (p x)) := if_pos (h x)
    have hfirst : (push (p x) drawn).result = .ok () := by
      rw [hpush]
      rfl
    have hdrawn : (push (p x) drawn).drawn = drawn := by
      rw [hpush]
      rfl
    rw [forEach, bind_apply_ok hfirst, hdrawn]
    exact ih

end Walk

namespace Walker

variable {w : Walker} {context : Json}

/-- A record is announced under its own context, which never fails. -/
theorem collectDeclaration_allOrNothing (w : Walker) (heading : Heading) (node context : Json) :
    (w.collectDeclaration heading node context).AllOrNothing := by
  rw [collectDeclaration_eq]
  refine (strippedFields_ensures w node).allOrNothing fun fields _ => ?_
  refine (resolveName_ensures (fun _ => rfl) fields).allOrNothing fun name _ => ?_
  refine (Walk.ofExcept_silent _).allOrNothing fun modifiers _ => ?_
  refine (Walk.ofExcept_silent _).allOrNothing fun record _ => ?_
  refine Walk.allOrNothing_of_ok fun drawn => ⟨(), ?_⟩
  rw [record.announce_apply]

/-- All variables of a statement are shaped before the first is pushed. -/
theorem collectVariables_allOrNothing (w : Walker) (node : Json) (hcontext : context.isKey = true) :
    (w.collectVariables node context).AllOrNothing := by
  unfold collectVariables
  refine (strippedFields_ensures w node).allOrNothing fun fields _ => ?_
  refine (Walk.ofExcept_silent _).allOrNothing fun listed _ => ?_
  refine (shapeVariables_ensures (fun _ => rfl) context listed).allOrNothing fun records _ => ?_
  have husable : ∀ record, (Push.variableRecord record context).isUsable = true := fun _ => hcontext
  exact Walk.allOrNothing_of_ok fun drawn => ⟨(), Walk.forEach_push_ok husable records drawn⟩

theorem collectExport_allOrNothing (w : Walker) (node : Json) (hcontext : context.isKey = true) :
    (w.collectExport node context).AllOrNothing := by
  unfold collectExport
  refine (strippedFields_ensures w node).allOrNothing fun fields _ => ?_
  split
  next =>
    -- the log entry is no push
    have hlog : ∀ entry : LogEntry, (Event.logged entry).call = none := fun _ => rfl
    exact (Walk.ensures_log (F := AnyFault) hlog).allOrNothing fun _ _ => Walk.allOrNothing_fail _
  next name _ =>
    refine (Walk.ofExcept_silent _).allOrNothing fun record _ => ?_
    refine Walk.allOrNothing_of_ok fun drawn => ⟨(), ?_⟩
    have husable : (Push.exportRecord record context).isUsable = true := hcontext
    rw [Walk.push, if_pos husable]
    rfl

/-- The collectors of declarations, variables and exports. -/
theorem collect_allOrNothing (w : Walker) {collector : Collector}
    (hcollector : collector ≠ .importDeclaration) (node : Json) (hcontext : context.isKey = true) :
    (w.collect collector node context).AllOrNothing := by
  cases collector with
  | declaration heading => exact w.collectDeclaration_allOrNothing heading node context
  | variableStatement => exact w.collectVariables_allOrNothing node hcontext
  | exportAssignment => exact w.collectExport_allOrNothing node hcontext
  | importDeclaration => exact absurd rfl hcollector

/-- **A collector that fails leaves no trace.** Let the collector of a declaration, of variables or
of an export be given any node, under a context that can be a key, as every text can, and let it
fail, for whatever reason. Then it has pushed nothing and reported nothing, and the catalogue,
whatever it was, is left as it was. -/
theorem collect_failed (w : Walker) {collector : Collector}
    (hcollector : collector ≠ .importDeclaration) {node context : Json}
    (hcontext : context.isKey = true) {state : SessionState} {fault : Fault}
    (hfault : (w.collect collector node context state.drawn).result = .error fault) :
    let outcome := w.collect collector node context state.drawn
    Event.pushes outcome.events = [] ∧ Event.exports outcome.events = [] ∧
      (state.after outcome).catalogue = state.catalogue := by
  intro outcome
  have hcalls : outcome.events.filterMap Event.call = [] :=
    w.collect_allOrNothing hcollector node hcontext state.drawn fault hfault
  have hpushes : Event.pushes outcome.events = [] := by
    rw [← Event.pushes_call, hcalls]
    rfl
  have hexports : Event.exports outcome.events = [] := by
    rw [← Event.exports_call, hcalls]
    rfl
  refine ⟨hpushes, hexports, ?_⟩
  show state.catalogue.replay (Event.pushes outcome.events) = state.catalogue
  rw [hpushes]
  rfl

/-- Of two variables the second has an empty type name. The first was shaped already, and nothing of
it is pushed; the catalogue keeps the class that is in it. -/
theorem collect_failed_late :
    let w : Walker := ⟨"root", "namespace$", "import$", 40, KindTable.standard, .counted⟩
    let binding (typeName : Json) : Json := .obj [("name", .obj [("text", .str "x")]),
      ("type", .obj [("typeName", typeName)])]
    let node : Json := .obj [("declarationList", .obj [("declarations", .arr
      [binding (.obj [("text", .str "T")]), binding (.obj [("kind", .int 80)])])])]
    let found : Declaration := ⟨"A", .class, ⟨"C", by decide⟩, true, []⟩
    let state : SessionState :=
      ⟨Catalogue.empty.push (.declaration .classes found (.str "A")), 3⟩
    let outcome := w.collect .variableStatement node (.str "A") state.drawn
    ∃ report, outcome.result = .error (.invalid report) ∧
      (Event.pushes outcome.events = [] ∧ Event.exports outcome.events = [] ∧
        (state.after outcome).catalogue = state.catalogue) := by
  intro w binding node found state outcome
  have hfault : outcome.result = .error (.invalid ⟨"VariableDeclaration", _⟩) := rfl
  exact ⟨_, hfault, w.collect_failed (by decide) rfl hfault⟩

end Walker

end DeclCatalogue
