import DeclCatalogue.Proofs.Walk.Session
import DeclCatalogue.Proofs.Walk.Sequence

/-!
# Who is told of exported declarations

A declaration with an export modifier is reported right before it is pushed, and nothing else is
ever reported. `Push.calls` are a push with the report that comes with it, and `Event.Announced`
says of a list of events that its pushes and reports are the calls of its pushes, one after the
other. All that collectors and walks do is announced (`walk_announces`), whatever the tree and
however the walk ends, and so is what a whole session does (`session_reports`).

So the reports can be read off the pushes: they are the exported ones among the declarations that
are pushed, with their contexts and in their order.
-/

namespace DeclCatalogue

open Json (lookup setField)

/-- The report that comes with a push: one for a declaration that is marked as exported. -/
def Push.report? : Push → Option (Declaration × Json)
  | .declaration _ record context => if record.exported then some (record, context) else none
  | _ => none

/-- A push with the report that comes before it. -/
def Push.calls (p : Push) : List Event :=
  (p.report?.toList.map fun report => .exported report.1 report.2) ++ [.pushed p]

/-- What is reported are the exported ones among the declarations that are pushed. -/
def Event.Reported (events : List Event) : Prop :=
  Event.exports events = (Event.pushes events).filterMap Push.report?

/-- What is pushed and reported are the pushes, each with its report. -/
def Event.Announced (events : List Event) : Prop :=
  events.filterMap Event.call = (Event.pushes events).flatMap Push.calls

theorem Event.announced_append {es fs : List Event} (he : Event.Announced es)
    (hf : Event.Announced fs) : Event.Announced (es ++ fs) := by
  unfold Event.Announced at he hf ⊢
  rw [List.filterMap_append, Event.pushes_append, List.flatMap_append, he, hf]

/-- A list of events is announced if each of them is by itself. -/
theorem Event.announced_of_forall {events : List Event}
    (h : ∀ e ∈ events, Event.Announced [e]) : Event.Announced events := by
  induction events with
  | nil => rfl
  | cons e rest ih =>
    exact Event.announced_append (h e (List.mem_cons_self ..))
      (ih fun f hf => h f (List.mem_cons_of_mem _ hf))

/-- The report that an event is, if it is one. -/
def Event.report? : Event → Option (Declaration × Json)
  | .exported d context => some (d, context)
  | _ => none

/-- Events none of which is a report. -/
theorem Event.exports_eq_nil {events : List Event} (h : ∀ e ∈ events, e.report? = none) :
    Event.exports events = [] := by
  have hreports : Event.exports events = events.filterMap Event.report? := by
    unfold Event.exports
    exact List.filterMap_congr fun e _ => by cases e <;> rfl
  rw [hreports]
  exact List.filterMap_eq_nil_iff.mpr h

/-- Among the calls of a push is its report. -/
theorem Push.exports_calls (p : Push) : Event.exports p.calls = p.report?.toList := by
  unfold Push.calls
  cases p.report? <;> rfl

/-- What is announced is reported. -/
theorem Event.Announced.reported {events : List Event} (h : Event.Announced events) :
    Event.Reported events := by
  have hcalls : ∀ ps : List Push,
      Event.exports (ps.flatMap Push.calls) = ps.filterMap Push.report? := by
    intro ps
    induction ps with
    | nil => rfl
    | cons p rest ih =>
      rw [List.flatMap_cons, Event.exports_append, Push.exports_calls, ih, List.filterMap_cons]
      cases p.report? <;> rfl
  unfold Event.Announced at h
  unfold Event.Reported
  rw [← Event.exports_call, h, hcalls]

namespace Walk

variable {α β : Type}

/-- Whatever the step pushes, it reports what is exported of it and nothing else. -/
def Reports (u : Walk α) : Prop :=
  ∀ drawn, Event.Reported (u drawn).events

/-- Whatever the step pushes and reports is announced. -/
def Announces (u : Walk α) : Prop :=
  ∀ drawn, Event.Announced (u drawn).events

theorem announces_silent {u : Walk α} (h : ∀ drawn, (u drawn).events = []) : u.Announces := by
  intro drawn
  rw [h drawn]
  rfl

theorem Announces.bind {u : Walk α} {next : α → Walk β} (hu : u.Announces)
    (hnext : ∀ a, (next a).Announces) : (u >>= next).Announces := by
  intro drawn
  cases hr : (u drawn).result with
  | error fault =>
    rw [bind_apply_error hr]
    exact hu drawn
  | ok a =>
    rw [bind_apply_ok hr]
    exact Event.announced_append (hu drawn) (hnext a _)

/-- A step that reports nothing and pushes no exported declaration. -/
theorem Ensures.announces {u : Walk α} {R : α → Prop} {F : Fault → Prop}
    (h : u.Ensures (fun e => Event.Announced [e]) R F) : u.Announces :=
  fun drawn => Event.announced_of_forall (h drawn).1

end Walk

/-! ## Declarations -/

/-- What is done with a record of a declaration: it is reported if it is exported, and pushed. -/
def Declaration.announce (record : Declaration) (heading : Heading) (context : Json) :
    Walk Unit := do
  if record.exported then Walk.emit (.exported record context)
  Walk.push (.declaration heading record context)

/-- Under its own context a record is reported and pushed without fail. -/
theorem Declaration.announce_apply (record : Declaration) (heading : Heading) (drawn : Nat) :
    record.announce heading (.str record.context) drawn =
      ⟨(if record.exported then [.exported record (.str record.context)] else []) ++
        [.pushed (.declaration heading record (.str record.context))], drawn, .ok ()⟩ := by
  unfold Declaration.announce
  cases record.exported <;> rfl

theorem Declaration.announce_announces (record : Declaration) (heading : Heading) :
    (record.announce heading (.str record.context)).Announces := by
  intro drawn
  rw [record.announce_apply]
  unfold Event.Announced Event.pushes Push.calls
  cases hexported : record.exported <;> simp [Push.report?, Event.call, hexported]

namespace Walker

variable {w : Walker}

/-- A step after a check need only agree on what the check accepts. -/
theorem ofChecked_congr {α β : Type} {subject : String} {checked : Checked α}
    {next other : α → Walk β} (h : ∀ a, checked = .valid a → next a = other a) :
    Walk.ofChecked subject checked >>= next = Walk.ofChecked subject checked >>= other := by
  cases checked with
  | valid a => exact h a rfl
  | invalid issues => rfl

/-- Collecting a declaration is making its record and announcing that. -/
theorem collectDeclaration_eq (w : Walker) (heading : Heading) (node context : Json) :
    w.collectDeclaration heading node context = (do
      let fields ← w.strippedFields node
      let name ← resolveName fields
      let named := setField "name" (.obj [("text", name)]) fields
      let modifiers ← Walk.ofExcept (Node.modifiers (.obj named))
      let record ← Walk.ofChecked Declaration.subject
        (Declaration.make context heading.kind name (modifiers.contains .exported) named)
      record.announce heading (.str record.context)) := by
  unfold collectDeclaration shapeDeclaration
  simp only [bind_assoc]
  refine bind_congr fun fields => bind_congr fun name => bind_congr fun modifiers => ?_
  refine ofChecked_congr fun record hmake => ?_
  -- the record is under the context that it is made of, and exported if the node is
  obtain ⟨hcontext, -, -, hexported, -⟩ := Declaration.make_eq_valid.mp hmake
  rw [hcontext, ← hexported]
  unfold Declaration.announce
  cases record.exported <;> rfl

theorem collectDeclaration_announces (w : Walker) (heading : Heading) (node context : Json) :
    (w.collectDeclaration heading node context).Announces := by
  have hlogged : ∀ entry, Event.Announced [.logged entry] := fun _ => rfl
  rw [collectDeclaration_eq]
  refine (strippedFields_ensures w node).announces.bind fun fields => ?_
  refine (resolveName_ensures hlogged fields).announces.bind fun name => ?_
  refine (Walk.announces_silent fun _ => rfl).bind fun modifiers => ?_
  exact (Walk.announces_silent fun _ => rfl).bind fun record => record.announce_announces heading

/-! ## Whole walks -/

/-- What a collector of other records does pushes no declaration. -/
theorem collect_announces (w : Walker) (collector : Collector) (node context : Json) :
    (w.collect collector node context).Announces := by
  have hlogged : ∀ entry, Event.Announced [.logged entry] := fun _ => rfl
  cases collector with
  | declaration heading => exact w.collectDeclaration_announces heading node context
  | variableStatement => exact (collectVariables_ensures hlogged (fun _ _ => rfl) node).announces
  | exportAssignment => exact (collectExport_ensures hlogged (fun _ _ => rfl) node).announces
  | importDeclaration => exact (collectImport_ensures hlogged (fun _ => rfl) node).announces

theorem sequenceRule_announces (w : Walker) : SequenceRule w Walk.Announces where
  done := Walk.announces_silent fun _ => rfl
  next := fun hu hv => hu.bind fun _ => hv
  kind := fun _ _ h => (Walk.announces_silent fun _ => rfl).bind h
  logged := fun _ _ _ => rfl
  collect := fun collector fields context => w.collect_announces collector (.obj fields) context
  enter := fun fields context _ h =>
    (enterModule_ensures (fun _ => rfl) (fun _ => rfl) fields context).announces.bind h
  noList := fun _ => Walk.announces_silent fun _ => rfl

/-- **What a walk reports and pushes is announced:** each exported declaration right before its
push, and nothing besides. -/
theorem walk_announces (w : Walker) (tree : Json) (context : Option Json) :
    (w.walk tree context).Announces :=
  tree_sequence w.sequenceRule_announces _ tree

/-- **What a walk reports are the exported ones among the declarations that it pushes,** with the
contexts that they are pushed under. -/
theorem walk_reports (w : Walker) (tree : Json) (context : Option Json) :
    (w.walk tree context).Reports :=
  fun drawn => (w.walk_announces tree context drawn).reported

/-! ## Sessions -/

/-- What the steps of a session did, one step after the other. -/
def eventsFrom (w : Walker) (state : SessionState) (actions : List Action) : List Event :=
  (w.session state actions).flatMap fun step => step.1.events

/-- One step of a session is announced. -/
theorem perform_announces (w : Walker) (action : Action) : (w.perform action).Announces := by
  cases action with
  | walk tree context => exact w.walk_announces tree context
  | collect collector node context => exact w.collect_announces collector node context

/-- The steps of a session are announced, whatever state it starts from. -/
theorem session_announces (w : Walker) (state : SessionState) (actions : List Action) :
    Event.Announced (w.eventsFrom state actions) := by
  -- the state that a step leaves is the one that the next step starts from
  induction actions generalizing state with
  | nil => rfl
  | cons action rest ih =>
    unfold eventsFrom
    rw [session, List.flatMap_cons]
    exact Event.announced_append (w.perform_announces action state.drawn) (ih _)

/-- **Exported declarations are reported, and nothing else is.** Whatever the steps of a session are
and however many of them end with a fault, what is reported are the exported ones among the
declarations that are pushed, each once, with the context that it is pushed under, in the order of
the pushes. Each report comes right before the push of its declaration: nothing is reported that is
not pushed then. Collecting variables, exports and imports and entering modules and namespaces
reports nothing. -/
theorem session_reports (w : Walker) (state : SessionState) (actions : List Action) :
    let events := w.eventsFrom state actions
    Event.exports events = (Event.pushes events).filterMap Push.report? ∧
      events.filterMap Event.call = (Event.pushes events).flatMap Push.calls ∧
      (∀ collector ∈ [Collector.variableStatement, .exportAssignment, .importDeclaration],
        ∀ node context drawn,
          Event.exports (w.collect collector node context drawn).events = []) ∧
      ∀ fields context drawn, Event.exports (w.enterModule fields context drawn).events = [] := by
  have hannounced := w.session_announces state actions
  have hlogged : ∀ entry, (Event.logged entry).report? = none := fun _ => rfl
  refine ⟨hannounced.reported, hannounced, ?_, ?_⟩
  · intro collector hcollector node context drawn
    refine Event.exports_eq_nil ?_
    rcases List.mem_cons.mp hcollector with rfl | hcollector
    · exact (collectVariables_ensures hlogged (fun _ _ => rfl) node drawn).1
    rcases List.mem_cons.mp hcollector with rfl | hcollector
    · exact (collectExport_ensures hlogged (fun _ _ => rfl) node drawn).1
    · obtain rfl := List.mem_singleton.mp hcollector
      exact (collectImport_ensures hlogged (fun _ => rfl) node drawn).1
  · intro fields context drawn
    exact Event.exports_eq_nil
      (enterModule_ensures hlogged (fun _ => rfl) fields context drawn).1

end Walker

end DeclCatalogue
