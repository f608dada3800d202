import DeclCatalogue.Proofs.Node.View
import DeclCatalogue.Proofs.Text.Numeral
import DeclCatalogue.Proofs.Walk.Scopes
import DeclCatalogue.Proofs.Walk.SessionCatalogue
import DeclCatalogue.Proofs.Walk.Tokens

/-!
# Names for imports without one

An import that names nothing is recorded under a placeholder, the prefix and a token. Tokens are
drawn one after the other over a whole session, so no two placeholders are alike if no two tokens
are. To say which import gets which token, `Walker.importsFrom` lists the imports that a session
gives to their collector, by a walk or one by one, each with the number of tokens drawn before it.

`Walker.Covers` is the invariant: the imports that were recorded are those of the listed imports, in
order, and the imports without a clause that have the name of a module, `Walker.isUnnamed`, drew the
tokens, one each, and nothing else drew any. It holds of one import (`collectImport_covered`)
and of every step that is none (`covers_nil`), and it goes along a row of stops, so along every
walk (`perform_covered`), and from step to step along a session, whether its steps fail or not.
-/

namespace DeclCatalogue

open Json (lookup)

/-- Tokens that are counted are all different. -/
theorem Tokens.counted_injective : Function.Injective Tokens.counted :=
  fun _ _ h => Text.hexDigits_injective 32 (String.ofList_injective (congrArg Subtype.val h))

/-! ## Steps that draw no token -/

namespace Walk

variable {α β : Type}

/-- A step that draws no token. -/
def Tokenless (u : Walk α) : Prop :=
  ∀ drawn, (u drawn).drawn = drawn

theorem tokenless_pure (a : α) : Tokenless (pure a) := fun _ => rfl

theorem tokenless_fail (fault : Fault) : Tokenless (fail fault : Walk α) := fun _ => rfl

theorem tokenless_ofExcept (result : Except Fault α) : Tokenless (ofExcept result) := fun _ => rfl

theorem tokenless_ofChecked (subject : String) (checked : Checked α) :
    Tokenless (ofChecked subject checked) := fun _ => rfl

theorem tokenless_emit (e : Event) : Tokenless (emit e) := fun _ => rfl

theorem tokenless_log (level : LogLevel) (event : String) (fields : Fields) :
    Tokenless (log level event fields) := fun _ => rfl

theorem tokenless_push (p : Push) : Tokenless (push p) := by
  unfold push
  split
  · exact tokenless_emit _
  · exact tokenless_fail _

/-- Two steps, of which the second is only taken from what the first one comes to. -/
theorem Tokenless.bind_of_result {u : Walk α} {next : α → Walk β} (h : u.Tokenless)
    (hnext : ∀ a drawn, (u drawn).result = .ok a → (next a).Tokenless) :
    (u >>= next).Tokenless := by
  intro drawn
  cases hr : (u drawn).result with
  | error fault =>
    rw [bind_apply_error hr]
    exact h drawn
  | ok a =>
    rw [bind_apply_ok hr]
    exact (hnext a drawn hr _).trans (h drawn)

theorem Tokenless.bind {u : Walk α} {next : α → Walk β} (h : u.Tokenless)
    (hnext : ∀ a, (next a).Tokenless) : (u >>= next).Tokenless :=
  h.bind_of_result fun a _ _ => hnext a

theorem Tokenless.forEach {step : α → Walk Unit} (h : ∀ a, (step a).Tokenless) (xs : List α) :
    (forEach step xs).Tokenless := by
  induction xs with
  | nil => exact tokenless_pure ()
  | cons x rest ih => exact (h x).bind fun _ => ih

end Walk

namespace Walker

open Walk

variable {w : Walker}

theorem strippedFields_tokenless (w : Walker) (node : Json) :
    (w.strippedFields node).Tokenless := by
  unfold strippedFields
  refine (tokenless_ofExcept _).bind fun v => ?_
  split
  · exact tokenless_pure _
  · exact tokenless_fail _

theorem resolveName_tokenless (fields : Fields) : (resolveName fields).Tokenless := by
  unfold resolveName
  split
  · exact tokenless_pure _
  · exact (tokenless_log _ _ _).bind fun _ => tokenless_fail _

theorem resolveNameOf_tokenless (v : Json) : (resolveNameOf v).Tokenless := by
  unfold resolveNameOf
  split
  · exact resolveName_tokenless _
  · exact tokenless_fail _

theorem collectDeclaration_tokenless (w : Walker) (heading : Heading) (node context : Json) :
    (w.collectDeclaration heading node context).Tokenless := by
  unfold collectDeclaration shapeDeclaration
  refine (strippedFields_tokenless w node).bind fun fields =>
    Tokenless.bind ?_ fun _ => tokenless_push _
  refine (resolveName_tokenless fields).bind fun _ => (tokenless_ofExcept _).bind fun _ =>
    (tokenless_ofChecked _ _).bind fun _ => ?_
  split
  · exact (tokenless_emit _).bind fun _ => tokenless_pure _
  · exact tokenless_pure _

theorem shapeVariable_tokenless (w : Walker) (context declaration : Json) :
    (w.shapeVariable context declaration).Tokenless := by
  unfold shapeVariable
  refine (tokenless_ofExcept _).bind fun _ => (tokenless_ofExcept _).bind fun _ => ?_
  dsimp only
  split
  · exact (tokenless_log _ _ _).bind fun _ => tokenless_pure _
  · split
    · exact (tokenless_ofExcept _).bind fun _ =>
        (tokenless_log _ _ _).bind fun _ => tokenless_pure _
    · refine (tokenless_ofExcept _).bind fun _ => ?_
      rw [map_eq_pure_bind]
      exact (tokenless_ofChecked _ _).bind fun _ => tokenless_pure _

theorem shapeVariables_tokenless (w : Walker) (context : Json) (declarations : List Json) :
    (w.shapeVariables context declarations).Tokenless := by
  induction declarations with
  | nil => exact tokenless_pure _
  | cons v rest ih =>
    rw [shapeVariables]
    exact (shapeVariable_tokenless w context v).bind fun _ => ih.bind fun _ => tokenless_pure _

theorem collectVariables_tokenless (w : Walker) (node context : Json) :
    (w.collectVariables node context).Tokenless := by
  unfold collectVariables
  exact (strippedFields_tokenless w node).bind fun _ => (tokenless_ofExcept _).bind fun _ =>
    (shapeVariables_tokenless w context _).bind fun _ =>
      Tokenless.forEach (fun _ => tokenless_push _) _

theorem collectExport_tokenless (w : Walker) (node context : Json) :
    (w.collectExport node context).Tokenless := by
  unfold collectExport
  refine (strippedFields_tokenless w node).bind fun _ => ?_
  split
  · exact (tokenless_log _ _ _).bind fun _ => tokenless_fail _
  · exact (tokenless_ofChecked _ _).bind fun _ => tokenless_push _

theorem pushImport_tokenless (kind : ImportKind) (what source : Json) :
    (pushImport kind what source).Tokenless :=
  (tokenless_ofChecked _ _).bind fun _ => tokenless_push _

theorem collectBindings_tokenless (source bindings : Json) :
    (collectBindings source bindings).Tokenless := by
  unfold collectBindings
  refine (tokenless_ofExcept _).bind fun _ => ?_
  split
  · exact pushImport_tokenless _ _ _
  · exact (tokenless_ofExcept _).bind fun _ => Tokenless.forEach (fun element =>
      (resolveNameOf_tokenless element).bind fun _ => pushImport_tokenless _ _ _) _

theorem enterModule_tokenless (w : Walker) (fields : Fields) (context : Json) :
    (w.enterModule fields context).Tokenless := by
  unfold enterModule
  split
  · exact (tokenless_log _ _ _).bind fun _ => tokenless_fail _
  · refine (tokenless_ofExcept _).bind fun _ => ?_
    dsimp only
    split
    · exact (tokenless_push _).bind fun _ => tokenless_pure _
    · exact tokenless_pure _

end Walker

/-! ## Imports -/

/-- An import that is given to its collector, and the number of tokens drawn before it. -/
structure ImportCall where
  node : Json
  drawn : Nat
  deriving DecidableEq, Repr

/-- The imports that are recorded among the events. -/
def Event.imports (events : List Event) : List ImportRecord :=
  (pushes events).filterMap Push.importRecord?

theorem Event.imports_append (es fs : List Event) :
    imports (es ++ fs) = imports es ++ imports fs := by
  unfold imports
  rw [pushes_append, List.filterMap_append]

/-- The import at a stop. -/
def Stop.imports (drawn : Nat) : Stop → List ImportCall
  | .collect .importDeclaration node => [⟨.obj node, drawn⟩]
  | _ => []

namespace Walker

/-- The name of the module that an import is from, if the import has no clause. -/
def moduleOfUnnamed? (w : Walker) (node : Json) : Option Json :=
  match Node.strip w.kinds node with
  | .ok (.obj fields) =>
    if (lookup "importClause" fields).truthy then none else Node.declaredName? fields
  | _ => none

/-- Whether an import has no clause, but the name of a module. -/
def isUnnamed (w : Walker) (call : ImportCall) : Bool :=
  (w.moduleOfUnnamed? call.node).isSome

/-- What an import records. -/
def importRecords (w : Walker) (call : ImportCall) : List ImportRecord :=
  Event.imports (w.collectImport call.node call.drawn).events

/-- The imports at a row of stops, up to the first stop that fails. -/
def importsAt (w : Walker) (outer : Json) : List (Scope × Stop) → Nat → List ImportCall
  | [], _ => []
  | (scope, stop) :: rest, drawn =>
    let outcome := stop.run w (scope.context outer w.namespacePrefix) drawn
    stop.imports drawn ++
      match outcome.result with
      | .ok _ => w.importsAt outer rest outcome.drawn
      | .error _ => []

/-- The imports that a step of a session gives to their collector. -/
def importsOf (w : Walker) : Action → Nat → List ImportCall
  | .walk tree context, drawn =>
    w.importsAt (context.getD (.str w.rootContext))
      (Node.stops w.kinds w.namespaceFlags .tree .outside tree) drawn
  | .collect .importDeclaration node _, drawn => [⟨node, drawn⟩]
  | .collect .., _ => []

/-- The imports that a session gives to their collector. -/
def importsFrom (w : Walker) : SessionState → List Action → List ImportCall
  | _, [] => []
  | state, action :: rest =>
    w.importsOf action state.drawn ++
      w.importsFrom (state.after (w.perform action state.drawn)) rest

end Walker

/-! ## One import -/

namespace Walker

variable {w : Walker} {node : Json}

/-- An import with a clause draws no token, and neither does one without the name of a module. -/
theorem collectImport_tokenless (h : w.moduleOfUnnamed? node = none) :
    (w.collectImport node).Tokenless := by
  unfold collectImport
  refine (strippedFields_tokenless w node).bind_of_result fun fields drawn hfields => ?_
  have hstrip : Node.strip w.kinds node = .ok (.obj fields) :=
    (strippedFields_ensures (E := fun _ => True) w node drawn).2.1 fields hfields
  refine (resolveName_tokenless fields).bind_of_result fun source drawn hsource => ?_
  have hname : Node.declaredName? fields = some source :=
    (resolveName_ensures (E := fun _ => True) (fun _ => trivial) fields drawn).2.1 source hsource
  have hclause : (lookup "importClause" fields).truthy = true := by
    by_contra hnone
    unfold moduleOfUnnamed? at h
    rw [hstrip] at h
    dsimp only at h
    rw [if_neg hnone, hname] at h
    cases h
  dsimp only
  rw [hclause]
  refine (Walk.tokenless_ofExcept _).bind fun nameNode => ?_
  have hbindings : ∀ bindings : Json, (if bindings.truthy then collectBindings source bindings
      else pure () : Walk Unit).Tokenless := by
    intro bindings
    split
    · exact collectBindings_tokenless source bindings
    · exact Walk.tokenless_pure _
  split
  · exact (pushImport_tokenless _ _ _).bind fun _ => hbindings _
  · exact hbindings _

/-- **An import without a clause** that has the name of a module draws one token, and it records
nothing but the placeholder with this token. If the placeholder or the name of the module is none
that a record can have, the token is drawn for nothing. -/
theorem collectImport_unnamed {source : Json} (h : w.moduleOfUnnamed? node = some source)
    (drawn : Nat) :
    (w.collectImport node drawn).drawn = drawn + 1 ∧
      Event.pushes (w.collectImport node drawn).events =
        (w.unnamedImport? (drawn + 1) source).toList.map .importRecord := by
  have hsteps : w.collectImport node =
      Walk.token >>= fun token => pushImport .default (.str (w.placeholder token)) source := by
    unfold moduleOfUnnamed? at h
    unfold collectImport strippedFields
    split at h
    next fields hstrip =>
      split at h
      next => cases h
      next hclause =>
        rw [hstrip]
        unfold resolveName
        simp only [Walk.ofExcept_ok, pure_bind, h, hclause]
        rfl
    next => cases h
  have htoken : (Walk.token drawn).result = .ok (drawn + 1) := rfl
  rw [hsteps, Walk.bind_apply_ok htoken, pushImport_eq]
  unfold unnamedImport?
  cases ImportRecord.of? .default (.str (w.placeholder (drawn + 1))) source <;> exact ⟨rfl, rfl⟩

end Walker

/-! ## What the imports cover -/

/-- An event that is not the push of an import. -/
def Event.IsNoImport (e : Event) : Prop :=
  ∀ record, e ≠ .pushed (.importRecord record)

namespace Walker

variable {w : Walker}

/-- **Imports cover what was recorded and drawn** by something that started behind `first` tokens,
recorded `records` and ended behind `last` tokens. The records are those of the imports, and the
imports without a clause start one token after the other, from `first` to `last`. -/
structure Covers (w : Walker) (calls : List ImportCall) (first : Nat)
    (records : List ImportRecord) (last : Nat) : Prop where
  records : records = calls.flatMap w.importRecords
  starts : (calls.filter w.isUnnamed).map (·.drawn) =
    List.range' first (calls.filter w.isUnnamed).length
  last : last = first + (calls.filter w.isUnnamed).length

/-- What goes on from where something stopped. -/
theorem Covers.append {calls more : List ImportCall} {first middle last : Nat}
    {records others : List ImportRecord} (h : w.Covers calls first records middle)
    (hmore : w.Covers more middle others last) :
    w.Covers (calls ++ more) first (records ++ others) last where
  records := by rw [h.records, hmore.records, List.flatMap_append]
  starts := by
    rw [List.filter_append, List.map_append, h.starts, hmore.starts, h.last, List.length_append,
      List.range'_append_1]
  last := by rw [hmore.last, h.last, List.filter_append, List.length_append, Nat.add_assoc]

/-- Imports cover a step. -/
abbrev CoversStep {α : Type} (w : Walker) (calls : List ImportCall) (u : Walk α) (drawn : Nat) :
    Prop :=
  w.Covers calls drawn (Event.imports (u drawn).events) (u drawn).drawn

/-- A step without imports. -/
theorem covers_nil {α : Type} {u : Walk α} (htokens : u.Tokenless)
    (hevents : u.Ensures Event.IsNoImport (fun _ => True) AnyFault) (drawn : Nat) :
    w.CoversStep [] u drawn := by
  refine ⟨List.filterMap_eq_nil_iff.mpr fun p hp => ?_, rfl, htokens drawn⟩
  have hnone := (hevents drawn).1 _ (mem_pushes hp)
  cases p with
  | importRecord record => exact absurd rfl (hnone record)
  | _ => rfl

/-- One import. -/
theorem collectImport_covered (w : Walker) (node : Json) (drawn : Nat) :
    w.CoversStep [⟨node, drawn⟩] (w.collectImport node) drawn := by
  have hrecords : Event.imports (w.collectImport node drawn).events =
      [ImportCall.mk node drawn].flatMap w.importRecords := by
    rw [List.flatMap_singleton]
    rfl
  cases hmodule : w.moduleOfUnnamed? node with
  | none =>
    have hfilter : [ImportCall.mk node drawn].filter w.isUnnamed = [] := by
      rw [List.filter_singleton, isUnnamed, hmodule]
      rfl
    refine ⟨hrecords, ?_, ?_⟩ <;> rw [hfilter]
    · rfl
    · exact collectImport_tokenless hmodule drawn
  | some source =>
    have hfilter : [ImportCall.mk node drawn].filter w.isUnnamed = [⟨node, drawn⟩] := by
      rw [List.filter_singleton, isUnnamed, hmodule]
      rfl
    refine ⟨hrecords, ?_, ?_⟩ <;> rw [hfilter]
    · rfl
    · exact (collectImport_unnamed hmodule drawn).1

/-- What goes to another collector is no import. -/
theorem collect_covered {collector : Collector} (h : collector ≠ .importDeclaration)
    (node context : Json) (drawn : Nat) :
    w.CoversStep [] (w.collect collector node context) drawn := by
  have hlog : ∀ entry, Event.IsNoImport (.logged entry) := fun _ _ h => by cases h
  cases collector with
  | declaration heading =>
    exact covers_nil (collectDeclaration_tokenless w heading node context)
      (collectDeclaration_ensures hlog (fun _ _ _ h => by cases h) fun _ _ _ _ _ h => by cases h)
      drawn
  | variableStatement =>
    exact covers_nil (collectVariables_tokenless w node context)
      (collectVariables_ensures hlog (fun _ _ _ h => by cases h) node) drawn
  | exportAssignment =>
    exact covers_nil (collectExport_tokenless w node context)
      (collectExport_ensures hlog (fun _ _ _ h => by cases h) node) drawn
  | importDeclaration => exact absurd rfl h

/-- One stop of a walk. -/
theorem stop_covered (w : Walker) (context : Json) (stop : Stop) (drawn : Nat) :
    w.CoversStep (stop.imports drawn) (stop.run w context) drawn := by
  cases stop with
  | collect collector node =>
    by_cases himport : collector = .importDeclaration
    · rw [himport]
      exact w.collectImport_covered (.obj node) drawn
    · have hnone : (Stop.collect collector node).imports drawn = [] := by
        cases collector with
        | importDeclaration => exact absurd rfl himport
        | _ => rfl
      rw [hnone]
      exact collect_covered himport (.obj node) context drawn
  | enter node =>
    have hentry : (w.enterModule node context).Ensures Event.IsNoImport (fun _ => True) AnyFault :=
      enterModule_ensures (fun _ _ h => by cases h) (fun _ _ h => by cases h) node context
    exact covers_nil
      ((enterModule_tokenless w node context).bind fun _ => Walk.tokenless_pure _)
      (hentry.bind fun _ _ => Walk.ensures_pure trivial) drawn
  | refuse fault => exact covers_nil (Walk.tokenless_fail fault) (Walk.ensures_fail trivial) drawn

/-- A row of stops. -/
theorem runStops_covered (w : Walker) (outer : Json) (row : List (Scope × Stop)) (drawn : Nat) :
    w.CoversStep (w.importsAt outer row drawn) (w.runStops outer row) drawn := by
  -- by the stops: the rest starts where the first one stopped, unless that failed
  induction row generalizing drawn with
  | nil => exact covers_nil (Walk.tokenless_pure ()) (Walk.ensures_pure trivial) drawn
  | cons first rest ih =>
    obtain ⟨scope, stop⟩ := first
    have hstop := w.stop_covered (scope.context outer w.namespacePrefix) stop drawn
    have hrow : w.runStops outer ((scope, stop) :: rest) =
      stop.run w (scope.context outer w.namespacePrefix) >>= fun _ => w.runStops outer rest := rfl
    unfold CoversStep importsAt
    rw [hrow]
    dsimp only
    cases hr : (stop.run w (scope.context outer w.namespacePrefix) drawn).result with
    | error fault =>
      rw [Walk.bind_apply_error hr, List.append_nil]
      exact hstop
    | ok a =>
      rw [Walk.bind_apply_ok hr, Event.imports_append]
      exact hstop.append (ih _)

/-- One step of a session. -/
theorem perform_covered (w : Walker) (action : Action) (drawn : Nat) :
    w.CoversStep (w.importsOf action drawn) (w.perform action) drawn := by
  cases action with
  | walk tree context =>
    have hstops := w.walkAs_stops (context.getD (.str w.rootContext)) .tree .outside tree
    obtain ⟨hevents, hdrawn, -⟩ := Walk.seen_apply hstops drawn
    have hpushes := congrArg Event.pushes hevents
    rw [Event.pushes_call, Event.pushes_call] at hpushes
    obtain ⟨hrecords, hstarts, hlast⟩ :=
      w.runStops_covered (context.getD (.str w.rootContext))
        (Node.stops w.kinds w.namespaceFlags .tree .outside tree) drawn
    refine ⟨?_, hstarts, hdrawn.trans hlast⟩
    exact (congrArg (List.filterMap Push.importRecord?) hpushes).trans hrecords
  | collect collector node context =>
    by_cases himport : collector = .importDeclaration
    · rw [himport]
      exact w.collectImport_covered node drawn
    · have hnone : w.importsOf (.collect collector node context) drawn = [] := by
        cases collector with
        | importDeclaration => exact absurd rfl himport
        | _ => rfl
      rw [hnone]
      exact collect_covered himport node context drawn

/-- **A session is covered by its imports,** also if steps of it fail. -/
theorem session_covered (w : Walker) (state : SessionState) (actions : List Action) :
    w.Covers (w.importsFrom state actions) state.drawn
      ((w.pushesFrom state actions).filterMap Push.importRecord?)
      (w.stateFrom state actions).drawn := by
  induction actions generalizing state with
  | nil => exact ⟨rfl, rfl, rfl⟩
  | cons action rest ih =>
    rw [pushesFrom_cons, stateFrom_cons, List.filterMap_append, importsFrom]
    exact (w.perform_covered action state.drawn).append (ih _)

/-! ## Placeholders of a session -/

/-- An import without a clause is recorded under the placeholder of the token that it draws. -/
theorem importRecords_unnamed {call : ImportCall} {source : Json}
    (h : w.moduleOfUnnamed? call.node = some source) :
    w.importRecords call = (w.unnamedImport? (call.drawn + 1) source).toList := by
  unfold importRecords Event.imports
  rw [(collectImport_unnamed h call.drawn).2, List.filterMap_map]
  exact (congrFun List.filterMap_eq_map _).trans (List.map_id _)

/-- The record of a placeholder has it as its name. -/
theorem what_of_unnamedImport? {token : Nat} {source : Json} {record : ImportRecord}
    (h : w.unnamedImport? token source = some record) : record.what.val = w.placeholder token :=
  (Json.str.inj (ImportRecord.of?_eq_some.mp h).2.1).symm

/-- The names under which imports without a clause are recorded are the placeholders of some of the
tokens that they drew, in the same order. -/
theorem whats_unnamed {calls : List ImportCall} (h : ∀ call ∈ calls, w.isUnnamed call = true) :
    ∃ counts : List Nat, counts.Sublist (calls.map (·.drawn + 1)) ∧
      (calls.flatMap w.importRecords).map (·.what.val) = counts.map w.placeholder := by
  induction calls with
  | nil => exact ⟨[], .slnil, rfl⟩
  | cons call rest ih =>
    obtain ⟨counts, hsublist, hwhats⟩ :=
      ih fun other hother => h other (List.mem_cons_of_mem _ hother)
    obtain ⟨source, hsource⟩ := Option.isSome_iff_exists.mp (h call (List.mem_cons_self ..))
    rw [List.flatMap_cons, List.map_append, hwhats, importRecords_unnamed hsource, List.map_cons]
    cases hrecord : w.unnamedImport? (call.drawn + 1) source with
    | none => exact ⟨counts, hsublist.cons _, rfl⟩
    | some record =>
      refine ⟨(call.drawn + 1) :: counts, hsublist.cons_cons _, ?_⟩
      exact congrArg (· :: _) (what_of_unnamedImport? hrecord)

/-- **No two imports without a clause are recorded under one name.** Take any session, on any trees
and nodes, from any state and with any source of tokens; its steps may fail. The imports that it
records are those of the imports that it gives to their collector, in order. Among these, the ones
without a clause that have the name of a module each draw one token, the next one, and nothing else
in the session draws any. Each is recorded under the prefix followed by the token that it drew, and
no more is recorded for it; if the placeholder or the name of its module is none that a record can
have, nothing is. So the names of these records show whole tokens, in the order in which they are
drawn, and they are all different if the source does not repeat a token during the session. -/
theorem session_placeholders (w : Walker) (state : SessionState) (actions : List Action) :
    let imports := w.importsFrom state actions
    let unnamed := imports.filter w.isUnnamed
    let whats := (unnamed.flatMap w.importRecords).map (·.what.val)
    (w.pushesFrom state actions).filterMap Push.importRecord? = imports.flatMap w.importRecords ∧
    unnamed.map (·.drawn) = List.range' state.drawn unnamed.length ∧
    (w.stateFrom state actions).drawn = state.drawn + unnamed.length ∧
    (∀ call ∈ imports, ∀ source, w.moduleOfUnnamed? call.node = some source →
      (w.collectImport call.node call.drawn).drawn = call.drawn + 1 ∧
      w.importRecords call = (w.unnamedImport? (call.drawn + 1) source).toList) ∧
    (∀ call ∈ imports, w.moduleOfUnnamed? call.node = none →
      (w.collectImport call.node call.drawn).drawn = call.drawn) ∧
    ∃ counts : List Nat, counts.Sublist (List.range' (state.drawn + 1) unnamed.length) ∧
      (whats = counts.map fun count => w.placeholderPrefix ++ w.tokens count) ∧
      (((List.range' (state.drawn + 1) unnamed.length).map w.tokens).Nodup → whats.Nodup) := by
  intro imports unnamed whats
  obtain ⟨hrecords, hstarts, hlast⟩ := w.session_covered state actions
  have hdrawn : ∀ call ∈ unnamed, w.isUnnamed call = true :=
    fun call hcall => (List.mem_filter.mp hcall).2
  obtain ⟨counts, hsublist, hwhats⟩ := whats_unnamed hdrawn
  -- the tokens drawn are the ones behind those that were drawn before
  have hrange : unnamed.map (·.drawn + 1) = List.range' (state.drawn + 1) unnamed.length :=
    calc unnamed.map (·.drawn + 1) = (unnamed.map (·.drawn)).map (1 + ·) := by
          rw [List.map_map]
          exact List.map_congr_left fun call _ => Nat.add_comm ..
      _ = (List.range' state.drawn unnamed.length).map (1 + ·) :=
          congrArg (List.map (1 + ·)) hstarts
      _ = List.range' (state.drawn + 1) unnamed.length := by
          rw [List.map_add_range', Nat.add_comm]
  rw [hrange] at hsublist
  have hwhats : whats = counts.map w.placeholder := hwhats
  refine ⟨hrecords, hstarts, hlast, ?_, ?_, counts, hsublist, hwhats, fun hdistinct => ?_⟩
  · intro call _ source hsource
    exact ⟨(collectImport_unnamed hsource call.drawn).1, importRecords_unnamed hsource⟩
  · exact fun call _ hnone => collectImport_tokenless hnone call.drawn
  · have hcounts : (counts.map w.tokens).Nodup := (hsublist.map w.tokens).nodup hdistinct
    have hnames : (fun token : Token => w.placeholderPrefix ++ token.val).Injective :=
      fun m n h => Subtype.ext ((String.append_right_inj _).mp h)
    have hplaceholders : counts.map w.placeholder =
        (counts.map w.tokens).map fun token => w.placeholderPrefix ++ token.val := by
      rw [List.map_map]
      rfl
    rw [hwhats, hplaceholders]
    exact hcounts.map hnames

/-- Two imports of one module, with tokens that are counted. -/
theorem session_placeholders_twice :
    let w : Walker := ⟨"root", "npm$namespace$", "npm$import$", 20, .standard, .counted⟩
    let node : Json := .obj [("kind", .int 272), ("moduleSpecifier", .obj [("text", .str "m")])]
    let actions : List Action :=
      [.collect .importDeclaration node .null, .collect .importDeclaration node .null]
    let unnamed := (w.importsFrom SessionState.initial actions).filter w.isUnnamed
    unnamed.length = 2 ∧ ((unnamed.flatMap w.importRecords).map (·.what.val)).Nodup := by
  intro w node actions unnamed
  obtain ⟨-, -, -, -, -, _, -, -, hdistinct⟩ :=
    session_placeholders w SessionState.initial actions
  exact ⟨by decide +kernel, hdistinct (List.Nodup.map Tokens.counted_injective List.nodup_range')⟩

end Walker

end DeclCatalogue
