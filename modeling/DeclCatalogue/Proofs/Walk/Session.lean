import DeclCatalogue.Proofs.Catalogue.Declarations
import DeclCatalogue.Proofs.Walk.Collect

/-!
# What a session leaves in the catalogue

Whatever the trees that are walked and the nodes that are collected, in whatever order and however
many of the steps end with a fault, a declaration in the catalogue is a record of a node that some
step gave to the collector of its heading. `Action.Gives` names that node: the node itself where it
is collected directly, and in a walk a statement of the kind that is recorded under the heading, at
any depth of modules.

The proof takes one step at a time: `perform_ensures` says it of the pushes of one action, and
`session_records` carries it along the session, from the empty catalogue on.
-/

namespace DeclCatalogue

open Json (lookup)

/-- What is given to the collector of declarations under a heading. -/
inductive Action.Gives (w : Walker) (heading : Heading) : Action → Json → Prop where
  | collected (node context : Json) :
      Gives w heading (.collect (.declaration heading) node context) node
  | walked {tree node : Json} (context : Option Json) : Node.Reaches tree node →
      w.kinds.kindName node = .ok (some heading.syntaxKind.name) →
      Gives w heading (.walk tree context) node

/-- The kind of node that goes to the collector of a heading. -/
theorem StatementKind.ofName?_eq_declaration {name : String} {heading : Heading}
    (h : StatementKind.ofName? name = some (.recorded (.declaration heading))) :
    name = heading.syntaxKind.name := by
  unfold StatementKind.ofName? at h
  obtain ⟨entry, hfind, hentry⟩ := Option.map_eq_some_iff.mp h
  have hname : entry.1.name = name := by simpa using List.find?_some hfind
  have htable : ∀ e ∈ StatementKind.table, e.2 = .recorded (.declaration heading) →
      e.1 = heading.syntaxKind := by
    cases heading <;> decide
  rw [← hname, htable entry (List.mem_of_find?_eq_some hfind) hentry]

/-- A record keeps the name of the kind of its node. -/
theorem Declaration.IsRecordOf.lookup_kind {record : Declaration} {kinds : KindTable}
    {heading : Heading} {node : Json} {name : String} (h : record.IsRecordOf kinds heading node)
    (hkind : kinds.kindName node = .ok (some name)) : lookup "kind" record.node = .str name := by
  obtain ⟨fields, hstrip, hnode⟩ := h.stripped
  rw [hnode, Json.lookup_setField_of_ne (by decide)]
  cases node with
  | obj given =>
    obtain ⟨name', hname', hlookup⟩ := Node.strip_kind hstrip
    rw [hname'] at hkind
    rw [hlookup, Except.ok.inj hkind]
    rfl
  | _ => cases hkind

namespace Walker

variable {w : Walker}

/-- An event pushes no declaration but records of the nodes that are given, under their own
contexts. -/
def RecordsOf (w : Walker) (gives : Heading → Json → Prop) (e : Event) : Prop :=
  ∀ heading record context, e = .pushed (.declaration heading record context) →
    context = .str record.context ∧
      ∃ node, gives heading node ∧ record.IsRecordOf w.kinds heading node

theorem collect_ensures {gives : Heading → Json → Prop} (collector : Collector)
    (node context : Json)
    (hgives : ∀ heading, collector = .declaration heading → gives heading node) :
    (w.collect collector node context).Ensures (w.RecordsOf gives) (fun _ => True) AnyFault := by
  refine collector_ensures collector node context (fun _ _ _ _ h => by cases h)
    (fun _ _ _ _ _ h => by cases h) ?_ ?_
  · intro heading record hcollector hcontext hrecord _ heading' record' context' heq
    cases heq
    exact ⟨hcontext, node, hgives heading hcollector, hrecord⟩
  · intro p _ hother heading record key heq
    exact absurd (Event.pushed.inj heq) (hother heading record key)

/-- Entering a module pushes no declaration. -/
theorem enterModule_ensures {E : Event → Prop} (hlog : ∀ entry, E (.logged entry))
    (hpush : ∀ name, E (.pushed (.namespaceName name))) (fields : Fields) (context : Json) :
    (w.enterModule fields context).Ensures E (fun _ => True) AnyFault := by
  unfold enterModule
  split
  · exact (Walk.ensures_log hlog).bind fun _ _ => Walk.ensures_fail trivial
  · refine Walk.Ensures.bind (R := fun _ => True)
      (Walk.ensures_ofExcept (fun _ _ => trivial) fun _ _ => trivial) fun flags _ => ?_
    dsimp only
    split
    · exact (Walk.ensures_push (fun _ => hpush _) trivial).bind fun _ _ => Walk.ensures_pure trivial
    · exact Walk.ensures_pure trivial

/-- The rule for events of which it does not matter where in a tree they come from. -/
theorem walkRule_uniform {E : Event → Prop} (hlog : ∀ entry, E (.logged entry))
    (hname : ∀ name, E (.pushed (.namespaceName name)))
    (hcollect : ∀ collector fields context name, w.kinds.kindName (.obj fields) = .ok (some name) →
      StatementKind.ofName? name = some (.recorded collector) →
      (w.collect collector (.obj fields) context).Ensures E (fun _ => True) AnyFault) :
    WalkRule w (fun _ => E) AnyFault where
  logged := fun _ => hlog
  collect := hcollect
  enter := enterModule_ensures hlog hname
  body := fun _ _ h => h
  listed := fun _ _ _ _ _ _ h => h
  badKind := fun _ _ _ => trivial
  noStatements := fun _ => trivial

/-- What a walk gives to the collector of a heading: the statements of its kind that it reaches. -/
def Statement (w : Walker) (tree : Json) (heading : Heading) (node : Json) : Prop :=
  Node.Reaches tree node ∧ w.kinds.kindName node = .ok (some heading.syntaxKind.name)

theorem recordsOf_mono {gives gives' : Heading → Json → Prop}
    (h : ∀ heading node, gives heading node → gives' heading node) {e : Event}
    (he : w.RecordsOf gives e) : w.RecordsOf gives' e := by
  intro heading record context heq
  obtain ⟨hcontext, node, hnode, hrecord⟩ := he heading record context heq
  exact ⟨hcontext, node, h heading node hnode, hrecord⟩

theorem walkRule_records (w : Walker) :
    WalkRule w (fun v => w.RecordsOf (w.Statement v)) AnyFault where
  logged := fun _ _ _ _ _ h => by cases h
  collect := by
    intro collector fields context name hkind hstep
    refine collect_ensures collector (.obj fields) context fun heading hcollector => ?_
    rw [hcollector] at hstep
    exact ⟨.self _, by rw [hkind, StatementKind.ofName?_eq_declaration hstep]⟩
  enter := fun fields context =>
    enterModule_ensures (fun _ _ _ _ h => by cases h) (fun _ _ _ _ h => by cases h) fields context
  body := fun _ _ he => recordsOf_mono (fun _ _ h => ⟨.body h.1, h.2⟩) he
  listed := fun _ _ _ _ hlist hmem he =>
    recordsOf_mono (fun _ _ h => ⟨.listed hlist hmem h.1, h.2⟩) he
  badKind := fun _ _ _ => trivial
  noStatements := fun _ => trivial

/-- What one action pushes are records of what it gives to the collectors. -/
theorem perform_ensures (w : Walker) (action : Action) :
    (w.perform action).Ensures (w.RecordsOf fun heading => action.Gives w heading)
      (fun _ => True) AnyFault := by
  cases action with
  | walk tree context =>
    refine (tree_ensures (walkRule_records w) _ tree).mono ?_ (fun _ h => h) fun _ h => h
    exact fun e he => recordsOf_mono (fun _ _ h => .walked context h.1 h.2) he
  | collect collector node context =>
    refine collect_ensures collector node context fun heading hcollector => ?_
    rw [hcollector]
    exact .collected node context

theorem mem_pushes {p : Push} {events : List Event} (h : p ∈ Event.pushes events) :
    .pushed p ∈ events := by
  unfold Event.pushes at h
  obtain ⟨e, he, hp⟩ := List.mem_filterMap.mp h
  cases e with
  | pushed q => rwa [← Option.some.inj hp]
  | _ => cases hp

/-- A declaration that stands under the key of its context and is a record of a node that one of
the actions gives. -/
def IsRecorded (w : Walker) (actions : List Action) (key : Json) (heading : Heading)
    (record : Declaration) : Prop :=
  key = .str record.context ∧ ∃ action ∈ actions, ∃ node, action.Gives w heading node ∧
    record.IsRecordOf w.kinds heading node

/-- **One step keeps the records.** The pushes of an action are added to a catalogue in which
every declaration is recorded. -/
theorem after_records {actions : List Action} {action : Action} (hmem : action ∈ actions)
    {state : SessionState} (h : state.catalogue.EachDeclaration (w.IsRecorded actions)) :
    (state.after (w.perform action state.drawn)).catalogue.EachDeclaration
      (w.IsRecorded actions) := by
  unfold SessionState.after
  refine Catalogue.eachDeclaration_replay h fun heading record context hpush => ?_
  obtain ⟨hcontext, node, hgives, hrecord⟩ :=
    (perform_ensures w action state.drawn).1 _ (mem_pushes hpush) heading record context rfl
  exact ⟨hcontext, hcontext, action, hmem, node, hgives, hrecord⟩

/-- Along a session every declaration stays recorded. -/
theorem session_records {actions : List Action} (steps : List Action) {state : SessionState}
    (hsteps : ∀ action ∈ steps, action ∈ actions)
    (h : state.catalogue.EachDeclaration (w.IsRecorded actions)) :
    ∀ step ∈ w.session state steps, step.2.catalogue.EachDeclaration (w.IsRecorded actions) := by
  -- the state changes with every step; the actions that records may come from stay the same
  induction steps generalizing state with
  | nil =>
    intro step hstep
    cases hstep
  | cons action rest ih =>
    have hnext := after_records (hsteps action (List.mem_cons_self ..)) h
    intro step hstep
    rcases List.mem_cons.mp hstep with rfl | hrest
    · exact hnext
    · exact ih (fun a ha => hsteps a (List.mem_cons_of_mem _ ha)) hnext step hrest

end Walker

end DeclCatalogue
