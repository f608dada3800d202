import DeclCatalogue.Extraction
import DeclCatalogue.Proofs.Walk.Nameless
import DeclCatalogue.Proofs.Walk.Sequence

/-!
# What a walk complains of

A walk logs errors for one cause only, a name that is missing, and it logs the error right before it
gives up: the three places that find a name missing do both at once, and nothing above them logs the
error again or goes on after it. All else that is logged is for debugging.

`Walk.Complains` says so of a step. Steps that are calm, which log for debugging and do not end for
want of a name, complain of nothing (`Ensures.complains`), and a row of steps complains as its steps
do (`Complains.bind`). With a rule for each collector and for the entry of a module this goes along
every walk, `World.walkTree_complains`.
-/

namespace DeclCatalogue

open Json (lookup)

/-! ## Complaints -/

/-- An event that is no cause for concern: if it is a log entry, it is one for debugging. -/
def Event.IsCalm (e : Event) : Prop :=
  ∀ entry, e = .logged entry → entry.level = .debug

/-- Calm events, and an error in the log behind them. -/
def Event.EndInError (events : List Event) : Prop :=
  ∃ before entry, events = before ++ [.logged entry] ∧ (∀ e ∈ before, e.IsCalm) ∧
    entry.level = .error

/-- What stands in the log is an event that is logged. -/
theorem Event.mem_log {events : List Event} {entry : LogEntry} :
    entry ∈ Event.log events ↔ .logged entry ∈ events := by
  unfold Event.log
  rw [List.mem_filterMap]
  constructor
  · rintro ⟨e, he, hentry⟩
    cases e with
    | logged other => rwa [← Option.some.inj hentry]
    | _ => cases hentry
  · exact fun h => ⟨_, h, rfl⟩

theorem Event.isCalm_pushed (p : Push) : (Event.pushed p).IsCalm := by
  intro entry h
  cases h

/-- **Errors are logged for missing names.** If a step ends for want of a name, the last of its
events is an error in the log, and if it does not, there is none. -/
structure Outcome.Complains {α : Type} (o : Outcome α) : Prop where
  nameless : ∀ fault, o.result = .error fault → fault.IsNameless → Event.EndInError o.events
  calm : (∀ fault, o.result = .error fault → ¬ fault.IsNameless) → ∀ e ∈ o.events, e.IsCalm

namespace Walk

variable {α β : Type} {R : α → Prop}

/-- A step that logs errors for missing names, wherever it starts. -/
def Complains (u : Walk α) : Prop :=
  ∀ drawn, (u drawn).Complains

/-- A step that logs for debugging only and does not end for want of a name. -/
abbrev Calm (u : Walk α) (R : α → Prop) : Prop :=
  u.Ensures Event.IsCalm R fun fault => ¬ fault.IsNameless

/-- What is calm complains of nothing. -/
theorem Ensures.complains {u : Walk α} (h : u.Calm R) : u.Complains := by
  intro drawn
  obtain ⟨hevents, -, hfault⟩ := h drawn
  exact ⟨fun fault hresult hnameless => absurd hnameless (hfault fault hresult), fun _ => hevents⟩

/-- **A row of steps complains as its steps do.** The second step is taken only if the first one
ends well, and then the first one is calm. -/
theorem Complains.bind {u : Walk α} {next : α → Walk β} (hu : u.Complains)
    (hnext : ∀ a, (next a).Complains) : (u >>= next).Complains := by
  intro drawn
  obtain ⟨hnameless, hcalm⟩ := hu drawn
  cases hr : (u drawn).result with
  | error fault =>
    rw [bind_apply_error hr]
    rw [hr] at hnameless hcalm
    refine ⟨fun other hother => ?_, fun hother => hcalm fun other h => ?_⟩
    · rw [← Except.error.inj hother]
      exact hnameless fault rfl
    · rw [← Except.error.inj h]
      exact hother fault rfl
  | ok a =>
    rw [bind_apply_ok hr]
    have hfirst : ∀ e ∈ (u drawn).events, e.IsCalm :=
      hcalm fun fault hfault => by rw [hr] at hfault; cases hfault
    obtain ⟨hnameless', hcalm'⟩ := hnext a (u drawn).drawn
    refine ⟨fun fault hfault hname => ?_, fun hother e he => ?_⟩
    · obtain ⟨before, entry, hevents, hbefore, hlevel⟩ := hnameless' fault hfault hname
      refine ⟨(u drawn).events ++ before, entry, ?_, fun e he => ?_, hlevel⟩
      · rw [hevents, List.append_assoc]
      · rcases List.mem_append.mp he with he | he
        · exact hfirst e he
        · exact hbefore e he
    · rcases List.mem_append.mp he with he | he
      · exact hfirst e he
      · exact hcalm' hother e he

theorem Complains.forEach {step : α → Walk Unit} (h : ∀ a, (step a).Complains) (xs : List α) :
    (forEach step xs).Complains := by
  induction xs with
  | nil => exact (ensures_pure (R := fun _ => True) trivial).complains
  | cons x rest ih => exact (h x).bind fun _ => ih

/-- **Giving up for want of a name,** with an error in the log. -/
theorem complains_giveUp (event : String) (entries : Fields) (node : Json) :
    (do log .error event entries; fail (.unresolvableName node) : Walk α).Complains := by
  intro drawn
  refine ⟨fun _ _ _ => ⟨[], ⟨.error, event, entries⟩, rfl, fun e he => ?_, rfl⟩, fun h => ?_⟩
  · cases he
  · exact absurd ⟨node, rfl⟩ (h _ rfl)

theorem calm_pure (a : α) : (pure a : Walk α).Calm fun _ => True :=
  ensures_pure trivial

theorem calm_fail {fault : Fault} (h : ∀ node, fault ≠ .unresolvableName node) :
    (fail fault : Walk α).Calm R :=
  ensures_fail fun ⟨node, hnode⟩ => h node hnode

theorem calm_ofExcept {result : Except Fault α} (h : Fault.NotNameless result) :
    (ofExcept result).Calm fun _ => True :=
  ensures_ofExcept (fun _ _ => trivial) h

theorem calm_ofChecked (subject : String) (checked : Checked α) :
    (ofChecked subject checked).Calm fun _ => True :=
  ensures_ofChecked (fun _ _ => trivial) fun _ ⟨_, h⟩ => by cases h

theorem calm_debug (event : String) (fields : Fields) :
    (log .debug event fields).Calm fun _ => True := by
  refine ensures_emit fun entry h => ?_
  rw [← Event.logged.inj h]

theorem calm_push (p : Push) : (push p).Calm fun _ => True :=
  ensures_push (fun _ => Event.isCalm_pushed p) fun ⟨_, h⟩ => by cases h

end Walk

/-! ## Collectors -/

namespace Walker

variable {w : Walker}

theorem strippedFields_calm (w : Walker) (node : Json) :
    (w.strippedFields node).Calm fun _ => True := by
  unfold strippedFields
  refine (Walk.calm_ofExcept (Node.strip_notNameless w.kinds node)).bind fun v _ => ?_
  split
  · exact Walk.calm_pure _
  · exact Walk.calm_fail fun _ h => by cases h

/-- A declaration without a name is complained of. -/
theorem resolveName_complains (fields : Fields) : (resolveName fields).Complains := by
  unfold resolveName
  split
  · exact (Walk.calm_pure _).complains
  · exact Walk.complains_giveUp _ _ _

theorem resolveNameOf_complains (v : Json) : (resolveNameOf v).Complains := by
  unfold resolveNameOf
  split
  · exact resolveName_complains _
  · exact Walk.Ensures.complains (R := fun _ => True) (Walk.calm_fail fun _ h => by cases h)

theorem collectDeclaration_complains (w : Walker) (heading : Heading) (node context : Json) :
    (w.collectDeclaration heading node context).Complains := by
  rw [collectDeclaration_eq]
  refine (strippedFields_calm w node).complains.bind fun fields => ?_
  refine (resolveName_complains fields).bind fun name => ?_
  refine (Walk.calm_ofExcept (Node.modifiers_notNameless _)).complains.bind fun modifiers => ?_
  refine (Walk.calm_ofChecked _ _).complains.bind fun record => ?_
  unfold Declaration.announce
  split
  · exact Walk.Complains.bind
      (Walk.ensures_emit (F := fun fault => ¬ fault.IsNameless) fun _ h => by cases h).complains
      fun _ => (Walk.calm_push _).complains
  · exact (Walk.calm_push _).complains

/-- A variable that is not recorded is logged for debugging. -/
theorem shapeVariable_calm (w : Walker) (context declaration : Json) :
    (w.shapeVariable context declaration).Calm fun _ => True := by
  unfold shapeVariable
  refine (Walk.calm_ofExcept (Node.get_notNameless _ _)).bind fun type _ =>
    (Walk.calm_ofExcept (Node.getPresent_notNameless _ _)).bind fun typeName _ => ?_
  dsimp only
  split
  · exact (Walk.calm_debug _ _).bind fun _ _ => Walk.calm_pure _
  · split
    · exact (Walk.calm_ofExcept (Node.getPresent_notNameless _ _)).bind fun _ _ =>
        (Walk.calm_debug _ _).bind fun _ _ => Walk.calm_pure _
    · refine (Walk.calm_ofExcept (Node.get_notNameless _ _)).bind fun left _ => ?_
      rw [map_eq_pure_bind]
      exact (Walk.calm_ofChecked _ _).bind fun _ _ => Walk.calm_pure _

theorem shapeVariables_calm (w : Walker) (context : Json) (declarations : List Json) :
    (w.shapeVariables context declarations).Calm fun _ => True := by
  induction declarations with
  | nil => exact Walk.calm_pure _
  | cons v rest ih =>
    rw [shapeVariables]
    exact (shapeVariable_calm w context v).bind fun _ _ => ih.bind fun _ _ => Walk.calm_pure _

theorem collectVariables_calm (w : Walker) (node context : Json) :
    (w.collectVariables node context).Calm fun _ => True := by
  unfold collectVariables
  refine (strippedFields_calm w node).bind fun fields _ => ?_
  have hlisted : Fault.NotNameless (do
      Node.items (← Node.getPresent (lookup "declarationList" fields) "declarations")) :=
    (Node.getPresent_notNameless _ _).bind fun _ => Node.items_notNameless _
  refine (Walk.calm_ofExcept hlisted).bind fun listed _ => ?_
  refine (shapeVariables_calm w context listed).bind fun records _ => ?_
  exact Walk.ensures_forEach fun record _ => Walk.calm_push _

/-- An exported expression without a name is complained of. -/
theorem collectExport_complains (w : Walker) (node context : Json) :
    (w.collectExport node context).Complains := by
  unfold collectExport
  refine (strippedFields_calm w node).complains.bind fun fields => ?_
  split
  · exact Walk.complains_giveUp _ _ _
  · exact (Walk.calm_ofChecked _ _).complains.bind fun _ => (Walk.calm_push _).complains

theorem pushImport_calm (kind : ImportKind) (what source : Json) :
    (pushImport kind what source).Calm fun _ => True :=
  (Walk.calm_ofChecked _ _).bind fun _ _ => Walk.calm_push _

/-- Of the elements of an import the first one without a name is complained of. -/
theorem collectBindings_complains (source bindings : Json) :
    (collectBindings source bindings).Complains := by
  unfold collectBindings
  refine (Walk.calm_ofExcept (Node.get_notNameless _ _)).complains.bind fun nameNode => ?_
  split
  · exact (pushImport_calm _ _ _).complains
  · refine (Walk.calm_ofExcept (Node.items_notNameless _)).complains.bind fun elements => ?_
    exact Walk.Complains.forEach (fun element => (resolveNameOf_complains element).bind fun _ =>
      (pushImport_calm _ _ _).complains) elements

theorem collectImport_complains (w : Walker) (node : Json) : (w.collectImport node).Complains := by
  unfold collectImport
  refine (strippedFields_calm w node).complains.bind fun fields => ?_
  refine (resolveName_complains fields).bind fun source => ?_
  dsimp only
  split
  · have htoken : Walk.token.Calm fun _ => True := Walk.ensures_token
    exact htoken.complains.bind fun _ => (pushImport_calm _ _ _).complains
  · refine (Walk.calm_ofExcept (Node.get_notNameless _ _)).complains.bind fun nameNode => ?_
    have hbindings : ∀ bindings : Json, (if bindings.truthy then collectBindings source bindings
        else pure () : Walk Unit).Complains := by
      intro bindings
      split
      · exact collectBindings_complains source bindings
      · exact (Walk.calm_pure _).complains
    split
    · exact (pushImport_calm _ _ _).complains.bind fun _ => hbindings _
    · exact hbindings _

theorem collect_complains (w : Walker) (collector : Collector) (node context : Json) :
    (w.collect collector node context).Complains := by
  cases collector with
  | declaration heading => exact w.collectDeclaration_complains heading node context
  | variableStatement => exact (w.collectVariables_calm node context).complains
  | exportAssignment => exact w.collectExport_complains node context
  | importDeclaration => exact w.collectImport_complains node

/-! ## Walks -/

/-- A module without a name is complained of. -/
theorem enterModule_complains (w : Walker) (fields : Fields) (context : Json) :
    (w.enterModule fields context).Complains := by
  unfold enterModule
  split
  · exact Walk.complains_giveUp _ _ _
  · refine (Walk.calm_ofExcept (Node.flagsOf_notNameless _)).complains.bind fun flags => ?_
    dsimp only
    split
    · exact (Walk.calm_push _).complains.bind fun _ => (Walk.calm_pure _).complains
    · exact (Walk.calm_pure _).complains

theorem sequenceRule_complains (w : Walker) : SequenceRule w Walk.Complains where
  done := (Walk.calm_pure _).complains
  next := fun hu hv => hu.bind fun _ => hv
  kind := fun v _ hafter =>
    (Walk.calm_ofExcept (Node.kindName_notNameless w.kinds v)).complains.bind hafter
  logged := fun event fields => (Walk.calm_debug event fields).complains
  collect := fun collector fields context => w.collect_complains collector (.obj fields) context
  enter := fun fields context _ hafter => (w.enterModule_complains fields context).bind hafter
  noList := fun _ =>
    Walk.Ensures.complains (R := fun _ => True) (Walk.calm_fail fun _ h => by cases h)

end Walker

/-! ## Tables of kinds that cannot be loaded -/

section

open Fault (NotNameless notNameless_ok notNameless_error)

theorem Fault.notNameless_mapError {α ε : Type} {result : Except ε α} {f : ε → Fault}
    (h : ∀ e node, f e ≠ .unresolvableName node) : NotNameless (result.mapError f) := by
  cases result with
  | ok a => exact notNameless_ok a
  | error e => exact notNameless_error (h e)

theorem KindTable.reverseEntries_notNameless (fields : Fields) :
    NotNameless (reverseEntries fields) := by
  fun_induction reverseEntries fields with
  | case1 => exact notNameless_ok _
  | case2 => exact notNameless_error fun _ h => by cases h
  | case3 key rest name _ tag _ ih => exact ih.map _
  | case4 key rest name _ ih => exact ih
  | case5 f rest _ ih => exact ih

/-- A table that cannot be loaded is no missing name. -/
theorem Settings.kindTable_notNameless (settings : Settings) (files : Files) :
    NotNameless (settings.kindTable files) := by
  have hread : ∀ path, NotNameless (files.read path) := by
    intro path
    unfold Files.read
    split
    · exact notNameless_ok _
    · exact notNameless_error fun _ h => by cases h
    · exact notNameless_error fun _ h => by cases h
  have hjson : ∀ path v, NotNameless (KindTable.ofJson path v) := by
    intro path v
    unfold KindTable.ofJson
    split
    · exact (KindTable.reverseEntries_notNameless _).map _
    · exact notNameless_error fun _ h => by cases h
  have hload : ∀ path, NotNameless (KindTable.load files path) := by
    intro path
    unfold KindTable.load Files.readText
    refine ((hread path).bind fun _ => Fault.notNameless_mapError fun _ _ h => by cases h).bind
      fun text => (Fault.notNameless_mapError fun e _ h => ?_).bind fun v => hjson path v
    cases e <;> cases h
  unfold kindTable
  split
  · exact notNameless_ok _
  · split
    · exact notNameless_ok _
    · exact hload _

end

namespace World

/-- A walk by the settings complains of missing names, also if it ends before it begins because a
table of kinds cannot be loaded. -/
theorem walkTree_complains (world : World) (settings : Settings) (kinds : Option KindTable)
    (tree : Json) (context : Option Json) :
    (world.walkTree settings kinds tree context).Complains := by
  unfold walkTree
  refine Walk.Complains.bind (Walk.calm_ofExcept ?_).complains fun kinds =>
    Walker.tree_sequence (Walker.sequenceRule_complains _) _ tree
  split
  · exact Fault.notNameless_ok _
  · exact settings.kindTable_notNameless world.files

end World

end DeclCatalogue
