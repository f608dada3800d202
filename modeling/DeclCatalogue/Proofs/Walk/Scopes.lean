import DeclCatalogue.Proofs.Walk.Contexts

/-!
# Where calls get their contexts from

The context of a call is that of the innermost module around the statement that it is made for, and
nothing further out has a part in it. To say so, a walk is laid out as a row of stops: the nodes
that it gives to collectors, the modules that it enters, and the fault that ends it, if one is found
in the tree itself. `Node.stops` lists them in order, each in its `Scope`: outside of all modules,
or in the body of a module or namespace of some name. It goes by the tree alone; no context and no
prefix is in it.

The walk makes the calls of its stops, one after the other (`walkAs_stops`), and a scope gives the
context of a stop from the context outside and the prefix of namespaces (`Scope.context`). Two walks
of one tree that differ in these go through the same stops, so that `walk_contexts` can compare them
call by call: `Walker.scopedCalls` are the calls with their scopes, and each walk makes these very
calls, each under the context of its scope.
-/

namespace DeclCatalogue

open Json (lookup)

/-! ## Scopes and stops -/

/-- Where a statement stands: outside of all modules, or in the body of a module or of a namespace,
the innermost one around it. -/
inductive Scope where
  | outside
  | inNamespace (name : Json)
  | inModule (name : Json)
  deriving DecidableEq, Repr

/-- The context of what stands in a scope, by the one outside and the prefix of namespaces. -/
def Scope.context (outer : Json) (namespacePrefix : String) : Scope → Json
  | .outside => outer
  | .inNamespace name => .str (namespacePrefix ++ name.display)
  | .inModule name => name

/-- A scope gives contexts of one sort: a text, or the name of its module. -/
theorem Scope.context_oneSort (scope : Scope) (c d p q : String) :
    Json.OneSort (scope.context (.str c) p) (scope.context (.str d) q) := by
  cases scope with
  | outside => exact .inr ⟨⟨c, rfl⟩, d, rfl⟩
  | inNamespace name => exact .inr ⟨⟨_, rfl⟩, _, rfl⟩
  | inModule name => exact .inl rfl

/-- What a walk comes to: a node for a collector, a module to enter, or the end of the walk. -/
inductive Stop where
  | collect (collector : Collector) (node : Fields)
  | enter (node : Fields)
  | refuse (fault : Fault)

/-- What is done at a stop. -/
def Stop.run (w : Walker) (context : Json) : Stop → Walk Unit
  | .collect collector node => w.collect collector (.obj node) context
  | .enter node => do
    let _ ← w.enterModule node context
    pure ()
  | .refuse fault => Walk.fail fault

/-- The value of a field is smaller than the object. -/
theorem Json.sizeOf_lookup_lt (key : String) (fields : Fields) :
    sizeOf (lookup key fields) < sizeOf (Json.obj fields) := by
  induction fields with
  | nil =>
    rw [Json.lookup_nil]
    decide
  | cons f rest ih =>
    obtain ⟨k, v⟩ := f
    rw [Json.lookup_cons]
    simp only [Json.obj.sizeOf_spec, List.cons.sizeOf_spec, Prod.mk.sizeOf_spec] at ih ⊢
    split
    · omega
    · omega

namespace Node

section Stops

variable (kinds : KindTable) (namespaceFlags : Int)

/-- The scope of what stands in the body of a module. -/
def bodyScope (fields : Fields) : Scope :=
  let name := (identifierText (lookup "name" fields)).getD .null
  match flagsOf (lookup "flags" fields) with
  | .ok flags =>
    if commonBits flags namespaceFlags ≠ 0 then .inNamespace name else .inModule name
  | .error _ => .inModule name

/-- The fault of a value without a list of statements. -/
def noListFault (v : Json) : Fault :=
  match kinds.kindName v with
  | .ok kind => .noStatementList kind
  | .error fault => fault

/-- The stops of a walk of a value, in order, each in its scope. What stands in the body of a module
is in the scope of that module, whatever is around it. -/
def stops (role : Walker.Role) (scope : Scope) (v : Json) : List (Scope × Stop) :=
  match role, v with
  | .statement, .obj fields =>
    match kinds.kindName (.obj fields) with
    | .error fault => [(scope, .refuse fault)]
    | .ok kind =>
      match kind.bind StatementKind.ofName? with
      | none => []
      | some (.recorded collector) => [(scope, .collect collector fields)]
      | some .module =>
        (scope, .enter fields) ::
          if (lookup "body" fields).truthy then
            match kinds.kindName (lookup "body" fields) with
            | .error fault => [(bodyScope namespaceFlags fields, .refuse fault)]
            | .ok kind =>
              stops (Walker.bodyRole kind) (bodyScope namespaceFlags fields) (lookup "body" fields)
          else []
  | .statement, _ => []
  | .tree, .obj fields =>
    match _ : lookup "statements" fields with
    | .arr vs => vs.attach.flatMap fun u => stops .statement scope u.val
    | _ => [(scope, .refuse (noListFault kinds (.obj fields)))]
  | .tree, v => [(scope, .refuse (noListFault kinds v))]
termination_by sizeOf v
decreasing_by
  · exact Json.sizeOf_lookup_lt "body" fields
  · have hlist := Json.sizeOf_lookup_lt "statements" fields
    have hitem := List.sizeOf_lt_of_mem u.property
    rw [‹lookup "statements" fields = _›, Json.arr.sizeOf_spec] at hlist
    omega

variable {kinds namespaceFlags} {scope : Scope} {fields : Fields}

/-- The stops of a tree are those of its statements. -/
theorem stops_tree {vs : List Json} (h : lookup "statements" fields = .arr vs) :
    stops kinds namespaceFlags .tree scope (.obj fields) =
      vs.flatMap fun u => stops kinds namespaceFlags .statement scope u := by
  rw [stops]
  split
  next us hus =>
    obtain rfl := Json.arr.inj (h.symm.trans hus)
    rw [← List.flatMap_map Subtype.val, List.attach_map_subtype_val]
  next hnone => exact absurd h (hnone vs)

/-- A tree without a list is refused. -/
theorem stops_noList (h : ∀ vs, lookup "statements" fields ≠ .arr vs) :
    stops kinds namespaceFlags .tree scope (.obj fields) =
      [(scope, .refuse (noListFault kinds (.obj fields)))] := by
  rw [stops]
  split
  next us hus => exact absurd hus (h us)
  next => rfl

end Stops

end Node

namespace Walker

/-! ## A walk as a row of stops -/

/-- Makes the stops of a row in order. -/
def runStops (w : Walker) (outer : Json) (row : List (Scope × Stop)) : Walk Unit :=
  Walk.forEach (fun stop => stop.2.run w (stop.1.context outer w.namespacePrefix)) row

variable {w : Walker} {outer : Json}

theorem runStops_singleton (scope : Scope) (stop : Stop) :
    w.runStops outer [(scope, stop)] = stop.run w (scope.context outer w.namespacePrefix) := by
  unfold runStops
  rw [Walk.forEach, Walk.forEach, bind_pure_unit]

theorem runStops_flatMap {α : Type} (row : α → List (Scope × Stop)) (xs : List α) :
    w.runStops outer (xs.flatMap row) = Walk.forEach (fun x => w.runStops outer (row x)) xs := by
  induction xs with
  | nil => rfl
  | cons x rest ih =>
    rw [List.flatMap_cons, Walk.forEach, ← ih]
    exact Walk.forEach_append _ _ _

/-- Without a list of statements there is a fault. -/
theorem noStatements_eq (w : Walker) (v : Json) :
    w.noStatements v = Walk.fail (Node.noListFault w.kinds v) := by
  unfold noStatements Node.noListFault
  cases w.kinds.kindName v <;> rfl

/-- **A module hands on its own name alone.** What follows on the entry of a module is under the
context of its scope, for which the context around it is not needed. -/
theorem enterModule_bind (w : Walker) (outer context : Json) (fields : Fields)
    (next : Json × Json → Walk Unit) :
    w.enterModule fields context >>= next = (do
      let _ ← w.enterModule fields context
      next ((Node.identifierText (lookup "name" fields)).getD .null,
        (Node.bodyScope w.namespaceFlags fields).context outer w.namespacePrefix)) := by
  unfold enterModule Node.bodyScope
  cases Node.identifierText (lookup "name" fields) with
  | none => rfl
  | some name =>
    cases flagsOf (lookup "flags" fields) with
    | error fault => rfl
    | ok flags =>
      by_cases hflags : commonBits flags w.namespaceFlags ≠ 0
      · simp only [Walk.ofExcept_ok, pure_bind, bind_assoc, hflags, decide_true, if_true,
          Scope.context, innerContext, Option.getD_some, ne_eq, not_false_eq_true]
      · simp only [Walk.ofExcept_ok, pure_bind, hflags, decide_false, if_false,
          Scope.context, innerContext, Option.getD_some, Bool.false_eq_true]

/-- Walking a value is seen to make the calls of its stops, each under the context of its scope, and
to end as they do. -/
def FollowsStops (w : Walker) (outer : Json) (role : Role) (scope : Scope) (v : Json) : Prop :=
  (w.walkAs (scope.context outer w.namespacePrefix) role v).seen Event.call =
    (w.runStops outer (Node.stops w.kinds w.namespaceFlags role scope v)).seen Event.call

/-- The body of a module, given the walk of what stands there. -/
private theorem moduleBody_stops {fields : Fields} {name : Json} {scope : Scope}
    (hbody : ∀ role, w.FollowsStops outer role scope (lookup "body" fields)) :
    (w.moduleBody fields (name, scope.context outer w.namespacePrefix)).seen Event.call =
      (w.runStops outer
        (if (lookup "body" fields).truthy then
          match w.kinds.kindName (lookup "body" fields) with
          | .error fault => [(scope, .refuse fault)]
          | .ok kind => Node.stops w.kinds w.namespaceFlags (bodyRole kind) scope
              (lookup "body" fields)
        else [])).seen Event.call := by
  by_cases hthere : (lookup "body" fields).truthy = true
  · rw [moduleBody_eq w hthere, if_pos hthere, Walk.seen_bind]
    have hlog : (Walk.log .debug "Entering module body" [("module", name),
        ("context", scope.context outer w.namespacePrefix)]).seen Event.call = pure () :=
      Walk.seen_emit_none rfl
    rw [hlog, pure_bind]
    cases w.kinds.kindName (lookup "body" fields) with
    | error fault =>
      rw [runStops_singleton]
      rfl
    | ok kind => exact hbody (bodyRole kind)
  · unfold moduleBody
    rw [if_neg hthere, if_neg hthere]
    rfl

/-- An object as a statement. -/
private theorem statement_stops (scope : Scope) {fields : Fields}
    (hbody : ∀ role scope, w.FollowsStops outer role scope (lookup "body" fields)) :
    w.FollowsStops outer .statement scope (.obj fields) := by
  show (w.statement _ (.obj fields)).seen _ = _
  rw [statement_obj, Node.stops]
  cases w.kinds.kindName (.obj fields) with
  | error fault =>
    rw [runStops_singleton]
    rfl
  | ok kind =>
    rw [Walk.ofExcept_ok, pure_bind]
    unfold dispatch
    cases hstep : kind.bind StatementKind.ofName? with
    | none =>
      have hskip : (skip kind (scope.context outer w.namespacePrefix)).seen Event.call = pure () :=
        Walk.seen_emit_none rfl
      simp only [hstep]
      exact hskip
    | some step =>
      simp only [hstep]
      cases step with
      | recorded collector =>
        dsimp only
        rw [runStops_singleton]
        rfl
      | module =>
        dsimp only
        rw [enterModule_bind w outer]
        show _ = ((do let _ ← w.enterModule fields _; pure ()) >>= fun _ =>
          w.runStops outer _ : Walk Unit).seen _
        rw [bind_assoc]
        refine Walk.seen_bind_congr rfl fun _ => ?_
        rw [pure_bind]
        exact moduleBody_stops fun role => hbody role _

/-- A tree without a list of statements. -/
private theorem noList_stops {scope : Scope} {v : Json}
    (htree : w.tree (scope.context outer w.namespacePrefix) v = w.noStatements v)
    (hstops : Node.stops w.kinds w.namespaceFlags .tree scope v =
      [(scope, .refuse (Node.noListFault w.kinds v))]) :
    w.FollowsStops outer .tree scope v := by
  show (w.tree _ v).seen _ = _
  rw [htree, hstops, runStops_singleton, noStatements_eq]
  rfl

/-- An object as a tree. -/
private theorem tree_stops (scope : Scope) {fields : Fields}
    (hlisted : ∀ vs, lookup "statements" fields = .arr vs →
      ∀ u ∈ vs, w.FollowsStops outer .statement scope u) :
    w.FollowsStops outer .tree scope (.obj fields) := by
  by_cases hlist : ∃ vs, lookup "statements" fields = .arr vs
  · obtain ⟨vs, hlist⟩ := hlist
    show (w.tree _ (.obj fields)).seen _ = _
    rw [tree_obj, hlist, Node.stops_tree hlist, runStops_flatMap]
    show (w.statements _ vs).seen _ = _
    rw [statements_eq_forEach]
    exact Walk.seen_forEach_congr (hlisted vs hlist)
  · have hnone : ∀ vs, lookup "statements" fields ≠ .arr vs := fun vs h => hlist ⟨vs, h⟩
    refine noList_stops ?_ (Node.stops_noList hnone)
    rw [tree_obj]
    cases hstatements : lookup "statements" fields with
    | arr vs => exact absurd hstatements (hnone vs)
    | _ => rfl

/-- A value that is no object is no statement and has none. -/
private theorem other_stops {v : Json} (hv : ∀ fields, v ≠ .obj fields) (role : Role)
    (scope : Scope) : w.FollowsStops outer role scope v := by
  cases role with
  | statement =>
    have hstops : Node.stops w.kinds w.namespaceFlags .statement scope v = [] := by
      rw [Node.stops]
      exact hv
    have hskip : w.statement (scope.context outer w.namespacePrefix) v =
        skip none (scope.context outer w.namespacePrefix) := by
      cases v with
      | obj fields => exact absurd rfl (hv fields)
      | _ => rfl
    show (w.statement _ v).seen _ = _
    rw [hskip, hstops]
    exact Walk.seen_emit_none rfl
  | tree =>
    refine noList_stops ?_ ?_
    · cases v with
      | obj fields => exact absurd rfl (hv fields)
      | _ => rfl
    · rw [Node.stops]
      exact hv

/-- A value as what it is taken for, and as statements what is listed in it. -/
private theorem value_stops (w : Walker) (outer v : Json) :
    (∀ role scope, w.FollowsStops outer role scope v) ∧
      ∀ vs, v = .arr vs → ∀ u ∈ vs, ∀ scope, w.FollowsStops outer .statement scope u := by
  -- a list is no tree and no statement, but the induction reaches statements through their list
  induction v using Json.induct_lookup with
  | obj fields ih =>
    refine ⟨fun role scope => ?_, fun vs h => by cases h⟩
    cases role with
    | statement => exact statement_stops scope (ih "body").1
    | tree => exact tree_stops scope fun vs h u hu => (ih "statements").2 vs h u hu scope
  | arr vs ih =>
    refine ⟨other_stops fun _ => Json.noConfusion, fun us h u hu scope => ?_⟩
    obtain rfl := Json.arr.inj h
    exact (ih u hu).1 .statement scope
  | _ => exact ⟨other_stops fun _ => Json.noConfusion, fun _ h => by cases h⟩

/-- **A walk makes the calls of its stops,** each under the context of its scope, and ends as they
do. -/
theorem walkAs_stops (w : Walker) (outer : Json) (role : Role) (scope : Scope) (v : Json) :
    w.FollowsStops outer role scope v :=
  (w.value_stops outer v).1 role scope

/-! ## Calls in their scopes -/

/-- The calls of a row of stops, each with its scope. They are made out under an empty context and
an empty prefix: which context a call is under is left to its scope. -/
def scopedCalls (w : Walker) : List (Scope × Stop) → Nat → List (Scope × Event)
  | [], _ => []
  | (scope, stop) :: rest, drawn =>
    let outcome := stop.run w (scope.context (.str "") "") drawn
    (outcome.events.filterMap Event.call).map (fun call => (scope, call)) ++
      match outcome.result with
      | .ok _ => w.scopedCalls rest outcome.drawn
      | .error _ => []

/-- The prefix of namespaces is not asked for at a stop. -/
theorem stop_namespacePrefix (w : Walker) (p : String) (context : Json) (stop : Stop) :
    stop.run { w with namespacePrefix := p } context = stop.run w context := by
  cases stop with
  | collect collector node => exact w.collect_namespacePrefix p collector (.obj node) context
  | enter node => exact w.enterModule_namespacePrefix p node context
  | refuse fault => rfl

/-- A stop under two contexts of one sort makes the same calls, each under its context. -/
theorem stop_under (w : Walker) {x y : Json} (h : Json.OneSort x y) (stop : Stop) :
    (stop.run w y).seen Event.call = (stop.run w x).seen (Event.callUnder y) := by
  cases stop with
  | collect collector node => exact w.collect_under h collector (.obj node)
  | enter node => exact Walk.seen_bind_congr (w.enterModule_under x y node) fun _ => rfl
  | refuse fault => rfl

/-- **A row of stops makes its calls in their scopes,** whatever the context outside and the prefix,
and it ends as it does under empty ones. -/
theorem runStops_scoped (w : Walker) (c p : String) (row : List (Scope × Stop)) (drawn : Nat) :
    let outcome := { w with namespacePrefix := p }.runStops (.str c) row drawn
    let plain := { w with namespacePrefix := "" }.runStops (.str "") row drawn
    outcome.events.filterMap Event.call =
        (w.scopedCalls row drawn).map
          (fun call => call.2.under (call.1.context (.str c) p)) ∧
      outcome.result = plain.result ∧ outcome.drawn = plain.drawn := by
  -- by the stops: after one that ends well the rest starts from the same number of tokens
  induction row generalizing drawn with
  | nil =>
    intro outcome plain
    have houtcome : outcome = ⟨[], drawn, .ok ()⟩ := rfl
    have hplain : plain = ⟨[], drawn, .ok ()⟩ := rfl
    rw [houtcome, hplain]
    exact ⟨rfl, rfl, rfl⟩
  | cons first rest ih =>
    obtain ⟨scope, stop⟩ := first
    obtain ⟨hevents, hdrawn, hresult⟩ := Walk.seen_apply
      (w.stop_under (scope.context_oneSort "" c "" p) stop) drawn
    have hmap : ∀ events : List Event,
        events.filterMap (Event.callUnder (scope.context (.str c) p)) =
          ((events.filterMap Event.call).map (fun call => (scope, call))).map
            (fun call => call.2.under (call.1.context (.str c) p)) := by
      intro events
      rw [List.map_map, List.map_filterMap]
      rfl
    intro outcome plain
    have houtcome : outcome = (stop.run w (scope.context (.str c) p) >>= fun _ =>
        { w with namespacePrefix := p }.runStops (.str c) rest) drawn := by
      rw [← w.stop_namespacePrefix p]
      rfl
    have hplain : plain = (stop.run w (scope.context (.str "") "") >>= fun _ =>
        { w with namespacePrefix := "" }.runStops (.str "") rest) drawn := by
      rw [← w.stop_namespacePrefix ""]
      rfl
    rw [scopedCalls, List.map_append, ← hmap, ← hevents]
    cases hend : (stop.run w (scope.context (.str "") "") drawn).result with
    | error fault =>
      rw [hend] at hresult
      rw [houtcome, hplain, Walk.bind_apply_error hresult, Walk.bind_apply_error hend]
      exact ⟨(List.append_nil _).symm, rfl, hdrawn⟩
    | ok a =>
      rw [hend] at hresult
      rw [houtcome, hplain, Walk.bind_apply_ok hresult, Walk.bind_apply_ok hend, ← hdrawn]
      obtain ⟨hcalls, hends, htokens⟩ := ih (stop.run w (scope.context (.str c) p) drawn).drawn
      refine ⟨?_, hends, htokens⟩
      rw [List.filterMap_append, hcalls]

/-! ## Variables -/

/-- Every variable that is recorded is one that a statement in reach lists. -/
def RecordsVariables (w : Walker) (v : Json) (e : Event) : Prop :=
  ∀ record context, e = .pushed (.variableRecord record context) →
    ∃ node declaration, Node.Reaches v node ∧ Node.ListsVariable w.kinds node declaration ∧
      record.IsRecordOf w.rootContext declaration

theorem walkRule_variables (w : Walker) : WalkRule w w.RecordsVariables AnyFault where
  logged := fun _ _ _ _ h => by cases h
  collect := by
    intro collector fields context name _ _
    have hlogged : ∀ entry, w.RecordsVariables (.obj fields) (.logged entry) :=
      fun _ _ _ h => by cases h
    cases collector with
    | declaration heading =>
      exact collectDeclaration_ensures hlogged (fun _ _ _ _ h => by cases h)
        fun _ _ _ _ _ _ h => by cases h
    | variableStatement =>
      refine collectVariables_records hlogged fun record _ hrecord other _ heq => ?_
      obtain ⟨declaration, hlisted, hrecordOf⟩ := hrecord
      obtain ⟨rfl, -⟩ := Push.variableRecord.inj (Event.pushed.inj heq)
      exact ⟨_, declaration, .self _, hlisted, hrecordOf⟩
    | exportAssignment =>
      exact collectExport_ensures hlogged (fun _ _ _ _ h => by cases h) _
    | importDeclaration =>
      exact collectImport_ensures hlogged (fun _ _ _ h => by cases h) _
  enter := by
    intro fields context
    exact enterModule_ensures (fun _ _ _ h => by cases h) (fun _ _ _ h => by cases h) fields context
  body := by
    intro fields e h record context heq
    obtain ⟨node, declaration, hreach, hvariable⟩ := h record context heq
    exact ⟨node, declaration, .body hreach, hvariable⟩
  listed := by
    intro fields vs v e hlist hmem h record context heq
    obtain ⟨node, declaration, hreach, hvariable⟩ := h record context heq
    exact ⟨node, declaration, .listed hlist hmem hreach, hvariable⟩
  badKind := fun _ _ _ => trivial
  noStatements := fun _ => trivial

/-! ## Two walks -/

/-- One of the two walks. -/
theorem walk_scoped (w : Walker) (tree : Json) (c p : String) (drawn : Nat) :
    let row := Node.stops w.kinds w.namespaceFlags .tree .outside tree
    let outcome := { w with namespacePrefix := p }.walk tree (some (.str c)) drawn
    let plain := { w with namespacePrefix := "" }.runStops (.str "") row drawn
    outcome.events.filterMap Event.call =
        (w.scopedCalls row drawn).map
          (fun call => call.2.under (call.1.context (.str c) p)) ∧
      outcome.result = plain.result ∧ outcome.drawn = plain.drawn := by
  intro row outcome plain
  have hstops := { w with namespacePrefix := p }.walkAs_stops (.str c) .tree .outside tree
  obtain ⟨hevents, hdrawn, hresult⟩ := Walk.seen_apply hstops drawn
  obtain ⟨hcalls, hends, htokens⟩ := w.runStops_scoped c p row drawn
  exact ⟨hevents.trans hcalls, hresult.trans hends, hdrawn.trans htokens⟩

/-- **Contexts come from the innermost module alone.** Let one tree be walked twice, under any two
texts as contexts and with any two prefixes for namespaces. Both walks make the same calls in the
same order, draw the same tokens and come to the same end. Calls differ in their contexts only, and
these come from their scopes: a call for a statement outside of all modules is under the context
that the walk was given, a call for one right in a namespace is under the name of that namespace
behind the prefix, and a call for one right in a module is under the name of that module, whatever
is further out. The context that a variable itself keeps is the root context in both walks, unless
its type has a qualified name. -/
theorem walk_contexts (w : Walker) (tree : Json) (c d p q : String) (drawn : Nat) :
    let one := { w with namespacePrefix := p }.walk tree (some (.str c)) drawn
    let two := { w with namespacePrefix := q }.walk tree (some (.str d)) drawn
    let calls := w.scopedCalls (Node.stops w.kinds w.namespaceFlags .tree .outside tree) drawn
    one.events.filterMap Event.call =
        calls.map (fun call => call.2.under (call.1.context (.str c) p)) ∧
      two.events.filterMap Event.call =
        calls.map (fun call => call.2.under (call.1.context (.str d) q)) ∧
      one.result = two.result ∧ one.drawn = two.drawn ∧
      (∀ e ∈ one.events, w.RecordsVariables tree e) ∧
      ∀ e ∈ two.events, w.RecordsVariables tree e := by
  intro one two calls
  obtain ⟨hone, hend, htokens⟩ := w.walk_scoped tree c p drawn
  obtain ⟨htwo, hend', htokens'⟩ := w.walk_scoped tree d q drawn
  have hvariables : ∀ (p : String) (context : Json),
      ∀ e ∈ ({ w with namespacePrefix := p }.tree context tree drawn).events,
        w.RecordsVariables tree e :=
    fun p context =>
      (tree_ensures { w with namespacePrefix := p }.walkRule_variables context tree drawn).1
  exact ⟨hone, htwo, hend.trans hend'.symm, htokens.trans htokens'.symm, hvariables p _,
    hvariables q _⟩

end Walker

end DeclCatalogue
