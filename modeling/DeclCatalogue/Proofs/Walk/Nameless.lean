import DeclCatalogue.Proofs.Node.NormalForm
import DeclCatalogue.Proofs.Walk.Reports
import DeclCatalogue.Proofs.Walk.Safety
import DeclCatalogue.Proofs.Walk.Ways

/-!
# The node that a missing name is put down to

A walk that ends for want of a name keeps a node to show for it. Where this node comes from is told
step by step: `Fault.Blames P` says of a fault that the node it keeps, if it keeps one, is an object
with the property `P`. Looking into values keeps no node (`Fault.NotNameless`), and collectors look
at stripped nodes only, so what they blame lies in one (`collect_blames`).

Modules are no business of collectors. They are looked at as they stand in the tree, and so is what
is kept of one without a name: its offsets, flags and parent are still there, and its kind is
whatever tag it had. `walk_unresolvableName` has both: what is kept is a clean node whose message
names its kind, except for modules, where it always is the node of the tree.
-/

namespace DeclCatalogue

open Json (lookup EachObject)

/-! ## What is clean all the way down -/

/-- What every object of a value has, every object of such an object has. -/
theorem Json.EachObject.within {P : Fields → Prop} {v : Json} (h : v.EachObject P) :
    v.EachObject fun o => (Json.obj o).EachObject P := by
  induction v using Json.induct with
  | arr vs ih =>
    exact Json.eachObject_arr.mpr fun u hu => ih u hu (Json.eachObject_arr.mp h u hu)
  | obj fields ih =>
    exact Json.eachObject_obj.mpr ⟨h, fun f hf => ih f hf ((Json.eachObject_obj.mp h).2 f hf)⟩
  | _ =>
    intro o ho
    cases ho

namespace Node

/-- What a message calls a kind. -/
def kindText : Option String → String
  | some name => if name = "" then "node" else name
  | none => "node"

/-- What a message is meant to show: no object of the node has bookkeeping, the kind of each is a
name or null, and the message ends in the name of the node's kind, which no table changes. -/
def IsShowable (node : Json) : Prop :=
  node.EachObject IsClean ∧ ∃ kind, (∀ kinds : KindTable, kinds.kindName node = .ok kind) ∧
    (Fault.unresolvableName node).message? = some ("Unable to resolve a name for " ++ kindText kind)

/-- A clean node is called by the name of its kind, which no table changes. -/
theorem describe_of_isClean {fields : Fields} (h : IsClean fields) :
    ∃ kind, (∀ kinds : KindTable, kinds.kindName (.obj fields) = .ok kind) ∧
      Fault.describe (.obj fields) = kindText kind := by
  have hfield : (Json.obj fields).field "kind" = lookup "kind" fields := rfl
  have hkindName : ∀ kinds : KindTable, kinds.kindName (.obj fields) =
      kinds.orStandard.nameOf (lookup "kind" fields) := fun _ => rfl
  unfold Fault.describe
  simp only [hkindName, hfield]
  rcases h.2 with hnull | ⟨name, hname⟩
  · rw [hnull]
    exact ⟨none, fun _ => rfl, rfl⟩
  · rw [hname]
    refine ⟨some name, fun _ => rfl, ?_⟩
    by_cases hempty : name = "" <;> simp [Json.truthy, Json.display, kindText, hempty]

/-- Every node in a stripped value can be shown. -/
theorem isShowable_of_strip {kinds : KindTable} {v stripped : Json}
    (h : strip kinds v = .ok stripped) {fields : Fields} (hfields : fields ∈ stripped.objects) :
    IsShowable (.obj fields) := by
  have hclean : (Json.obj fields).EachObject IsClean :=
    (strip_clean kinds v h).within fields hfields
  obtain ⟨kind, hkind, hdescribe⟩ := describe_of_isClean (Json.eachObject_obj.mp hclean).1
  refine ⟨hclean, kind, hkind, ?_⟩
  rw [← hdescribe]
  rfl

end Node

/-! ## Results that keep no node -/

/-- A result that, if it is a fault, is none for want of a name. -/
def Fault.NotNameless {α : Type} (result : Except Fault α) : Prop :=
  ∀ fault, result = .error fault → ¬ fault.IsNameless

section NotNameless

variable {α β : Type}

theorem Fault.notNameless_ok (a : α) : NotNameless (.ok a) := by
  intro fault h
  cases h

theorem Fault.NotNameless.bind {result : Except Fault α} {next : α → Except Fault β}
    (h : NotNameless result) (hnext : ∀ a, NotNameless (next a)) :
    NotNameless (result >>= next) := by
  intro fault hfault
  rcases Fault.bind_eq_error.mp hfault with hfault | ⟨a, -, hfault⟩
  · exact h fault hfault
  · exact hnext a fault hfault

theorem Fault.NotNameless.map {result : Except Fault α} (h : NotNameless result) (f : α → β) :
    NotNameless (result.map f) :=
  fun fault hfault => h fault (Fault.map_eq_error.mp hfault)

/-- A cause that is known, and is not a missing name. -/
theorem Fault.notNameless_error {fault : Fault} (h : ∀ node, fault ≠ .unresolvableName node) :
    NotNameless (.error fault : Except Fault α) := by
  rintro other hother ⟨node, rfl⟩
  exact h node (Except.error.inj hother)

end NotNameless

namespace Node

open Fault (NotNameless notNameless_ok notNameless_error)

theorem get_notNameless (node : Json) (key : String) : NotNameless (get node key) := by
  cases node with
  | obj fields => exact notNameless_ok _
  | _ => exact notNameless_error fun _ h => by cases h

theorem getPresent_notNameless (node : Json) (key : String) :
    NotNameless (getPresent node key) := by
  unfold getPresent
  split
  · exact get_notNameless node key
  · exact notNameless_ok _

theorem items_notNameless (v : Json) : NotNameless (items v) := by
  unfold items
  split
  · exact notNameless_ok _
  · exact notNameless_ok _
  · exact notNameless_ok _
  · split
    · exact notNameless_error fun _ h => by cases h
    · exact notNameless_ok _

theorem modifiers_notNameless (node : Json) : NotNameless (modifiers node) :=
  (get_notNameless _ _).bind fun _ => (items_notNameless _).bind fun _ => notNameless_ok _

theorem kindName_notNameless (kinds : KindTable) (v : Json) : NotNameless (kinds.kindName v) := by
  have htag : ∀ kind, NotNameless (KindTable.tagOf kind) := by
    intro kind
    unfold KindTable.tagOf
    split
    · exact notNameless_ok _
    · exact notNameless_ok _
    · split
      · exact notNameless_ok _
      · split
        · exact notNameless_error fun _ h => by cases h
        · exact notNameless_error fun _ h => by cases h
    · exact notNameless_error fun _ h => by cases h
  unfold KindTable.kindName
  split
  · unfold KindTable.nameOf
    split
    · exact notNameless_ok _
    · exact notNameless_ok _
    · exact (htag _).map _
  · exact notNameless_ok _

/-- A node is refused for one of its kinds, never for want of a name. -/
theorem strip_notNameless (kinds : KindTable) (v : Json) : NotNameless (strip kinds v) := by
  intro fault h
  obtain ⟨o, -, hkind⟩ := strip_error v h
  exact kindName_notNameless kinds (.obj o) fault hkind

theorem flagsOf_notNameless (flags : Json) : NotNameless (DeclCatalogue.flagsOf flags) := by
  unfold DeclCatalogue.flagsOf
  split
  · exact notNameless_ok _
  · exact notNameless_ok _
  · split
    · exact notNameless_error fun _ h => by cases h
    · exact notNameless_ok _

/-- What a value lists has what the objects of the value have. -/
theorem eachObject_items {P : Fields → Prop} {v : Json} (h : v.EachObject P) {vs : List Json}
    (hitems : items v = .ok vs) : ∀ u ∈ vs, u.EachObject P := by
  unfold items at hitems
  split at hitems
  · obtain rfl := Except.ok.inj hitems
    exact Json.eachObject_arr.mp h
  · obtain rfl := Except.ok.inj hitems
    exact List.forall_mem_map.mpr fun _ _ => Json.eachObject_str _
  · obtain rfl := Except.ok.inj hitems
    exact List.forall_mem_map.mpr fun _ _ => Json.eachObject_str _
  · split at hitems
    · cases hitems
    · obtain rfl := Except.ok.inj hitems
      exact fun _ hu => absurd hu List.not_mem_nil

end Node

/-! ## Steps and the nodes that they blame -/

/-- The node that a fault for want of a name keeps is an object with the property. -/
def Fault.Blames (P : Fields → Prop) (fault : Fault) : Prop :=
  ∀ node, fault = .unresolvableName node → ∃ fields, node = .obj fields ∧ P fields

namespace Walk

variable {α : Type} {P : Fields → Prop}

/-- A step that blames objects with the property only. -/
abbrev Blames (u : Walk α) (P : Fields → Prop) : Prop :=
  u.Ensures (fun _ => True) (fun _ => True) (Fault.Blames P)

/-- What needs no step blames nothing, if it is no fault for want of a name. -/
theorem blames_ofExcept {result : Except Fault α} (h : Fault.NotNameless result) :
    (ofExcept result).Ensures (fun _ => True) (fun a => result = .ok a) (Fault.Blames P) :=
  ensures_ofExcept (fun _ ha => ha) fun fault hfault node hnode =>
    absurd ⟨node, hnode⟩ (h fault hfault)

theorem blames_fail {fault : Fault} (h : ∀ node, fault ≠ .unresolvableName node) :
    (fail fault : Walk α).Blames P :=
  ensures_fail fun node hnode => absurd hnode (h node)

/-- Giving up for want of a name, with a word about it first. -/
theorem blames_giveUp {R : α → Prop} {level : LogLevel} {event : String} {entries fields : Fields}
    (h : P fields) :
    (do log level event entries; fail (.unresolvableName (.obj fields)) : Walk α).Ensures
      (fun _ => True) R (Fault.Blames P) :=
  (ensures_log fun _ => trivial).bind fun _ _ => ensures_fail fun _ hnode =>
    ⟨fields, (Fault.unresolvableName.inj hnode).symm, h⟩

/-- A check that is not passed is reported without a node. -/
theorem blames_ofChecked {subject : String} {checked : Checked α} :
    (ofChecked subject checked).Blames P :=
  ensures_ofChecked (fun _ _ => trivial) fun _ _ h => by cases h

theorem blames_push {p : Push} : (push p).Blames P :=
  ensures_push (fun _ => trivial) fun _ h => by cases h

end Walk

namespace Walker

variable {w : Walker} {P : Fields → Prop}

/-- A declaration without a name is blamed itself. -/
theorem resolveName_blames {fields : Fields} (h : P fields) : (resolveName fields).Blames P := by
  unfold resolveName
  split
  · exact Walk.ensures_pure trivial
  · exact Walk.blames_giveUp h

theorem resolveNameOf_blames {v : Json} (h : v.EachObject P) : (resolveNameOf v).Blames P := by
  unfold resolveNameOf
  split
  · exact resolveName_blames (Json.eachObject_obj.mp h).1
  · exact Walk.blames_fail fun _ h => by cases h

theorem shapeVariable_blames (context declaration : Json) :
    (w.shapeVariable context declaration).Blames P := by
  unfold shapeVariable
  refine (Walk.blames_ofExcept (Node.get_notNameless _ _)).bind fun type _ =>
    (Walk.blames_ofExcept (Node.getPresent_notNameless _ _)).bind fun typeName _ => ?_
  have hskipped : (Walk.log .debug "Skipping variable without a type reference"
      [("context", context),
        ("name", (Node.identifierText (declaration.field "name")).getD .null)]).Blames P :=
    Walk.ensures_log fun _ => trivial
  dsimp only
  split
  · exact hskipped.bind fun _ _ => Walk.ensures_pure trivial
  · split
    · refine (Walk.blames_ofExcept (Node.getPresent_notNameless _ _)).bind fun _ _ => ?_
      exact (Walk.ensures_log fun _ => trivial).bind fun _ _ => Walk.ensures_pure trivial
    · refine (Walk.blames_ofExcept (Node.get_notNameless _ _)).bind fun left _ => ?_
      rw [map_eq_pure_bind]
      exact Walk.blames_ofChecked.bind fun _ _ => Walk.ensures_pure trivial

theorem shapeVariables_blames (context : Json) (declarations : List Json) :
    (w.shapeVariables context declarations).Blames P := by
  induction declarations with
  | nil => exact Walk.ensures_pure trivial
  | cons v rest ih =>
    rw [shapeVariables]
    exact (shapeVariable_blames context v).bind fun _ _ =>
      ih.bind fun _ _ => Walk.ensures_pure trivial

theorem pushImport_blames (kind : ImportKind) (what source : Json) :
    (pushImport kind what source).Blames P :=
  Walk.blames_ofChecked.bind fun _ _ => Walk.blames_push

/-- An imported name that is missing is put down to the element that it is missing in. -/
theorem collectBindings_blames {bindings : Json} (h : bindings.EachObject P) (source : Json) :
    (collectBindings source bindings).Blames P := by
  unfold collectBindings
  refine (Walk.blames_ofExcept (Node.get_notNameless _ _)).bind fun nameNode _ => ?_
  split
  · exact pushImport_blames _ _ _
  · refine (Walk.blames_ofExcept (Node.items_notNameless _)).bind fun elements helements => ?_
    have hobjects := Node.eachObject_items (Node.eachObject_field h "elements") helements
    refine Walk.ensures_forEach fun element helement => ?_
    exact (resolveNameOf_blames (hobjects element helement)).bind fun _ _ => pushImport_blames _ _ _

/-! ## Collectors -/

variable {node : Json}
  (hstripped : ∀ stripped, Node.strip w.kinds node = .ok stripped → stripped.EachObject P)
include hstripped

theorem strippedFields_blames :
    (w.strippedFields node).Ensures (fun _ => True) (fun fields => (Json.obj fields).EachObject P)
      (Fault.Blames P) := by
  unfold strippedFields
  refine (Walk.blames_ofExcept (Node.strip_notNameless w.kinds node)).bind fun v hv => ?_
  split
  · exact Walk.ensures_pure (hstripped _ hv)
  · exact Walk.ensures_fail fun _ h => by cases h

theorem collectDeclaration_blames (heading : Heading) (context : Json) :
    (w.collectDeclaration heading node context).Blames P := by
  rw [collectDeclaration_eq]
  refine (strippedFields_blames hstripped).bind fun fields hfields => ?_
  refine (resolveName_blames (Json.eachObject_obj.mp hfields).1).bind fun name _ => ?_
  refine (Walk.blames_ofExcept (Node.modifiers_notNameless _)).bind fun modifiers _ => ?_
  refine Walk.blames_ofChecked.bind fun record _ => ?_
  unfold Declaration.announce
  split
  · exact (Walk.ensures_emit trivial).bind fun _ _ => Walk.blames_push
  · exact Walk.blames_push

theorem collectVariables_blames (context : Json) : (w.collectVariables node context).Blames P := by
  unfold collectVariables
  refine (strippedFields_blames hstripped).bind fun fields _ => ?_
  have hlisted : Fault.NotNameless (do
      Node.items (← Node.getPresent (lookup "declarationList" fields) "declarations")) :=
    (Node.getPresent_notNameless _ _).bind fun _ => Node.items_notNameless _
  refine (Walk.blames_ofExcept hlisted).bind fun listed _ => ?_
  refine (shapeVariables_blames context listed).bind fun records _ => ?_
  exact Walk.ensures_forEach fun record _ => Walk.blames_push

theorem collectExport_blames (context : Json) : (w.collectExport node context).Blames P := by
  unfold collectExport
  refine (strippedFields_blames hstripped).bind fun fields hfields => ?_
  split
  · exact Walk.blames_giveUp (Json.eachObject_obj.mp hfields).1
  · exact Walk.blames_ofChecked.bind fun _ _ => Walk.blames_push

theorem collectImport_blames : (w.collectImport node).Blames P := by
  unfold collectImport
  refine (strippedFields_blames hstripped).bind fun fields hfields => ?_
  refine (resolveName_blames (Json.eachObject_obj.mp hfields).1).bind fun source _ => ?_
  have hbindings := Node.eachObject_field (hfields.lookup "importClause") "namedBindings"
  dsimp only
  split
  · exact Walk.ensures_token.bind fun _ _ => pushImport_blames _ _ _
  · refine (Walk.blames_ofExcept (Node.get_notNameless _ _)).bind fun nameNode _ => ?_
    have hrest : (if (Json.field (lookup "importClause" fields) "namedBindings").truthy then
        collectBindings source (Json.field (lookup "importClause" fields) "namedBindings")
        else pure () : Walk Unit).Blames P := by
      split
      · exact collectBindings_blames hbindings source
      · exact Walk.ensures_pure trivial
    split
    · exact (pushImport_blames _ _ _).bind fun _ _ => hrest
    · exact hrest

/-- **What a collector blames lies in the stripped node.** -/
theorem collect_blames (collector : Collector) (context : Json) :
    (w.collect collector node context).Blames P := by
  cases collector with
  | declaration heading => exact collectDeclaration_blames hstripped heading context
  | variableStatement => exact collectVariables_blames hstripped context
  | exportAssignment => exact collectExport_blames hstripped context
  | importDeclaration => exact collectImport_blames hstripped

omit hstripped

/-! ## Walks -/

/-- A module that has no name to be entered under. -/
def IsNamelessModule (w : Walker) (fields : Fields) : Prop :=
  w.kinds.kindName (.obj fields) = .ok (some SyntaxKind.moduleDeclaration.name) ∧
    Node.identifierText (lookup "name" fields) = none

/-- What can be blamed for a statement: a module without a name as it stands, and of any other
statement an object of what stripping leaves of it. -/
inductive IsBlamed (w : Walker) (fields : Fields) : Fields → Prop where
  | module : w.IsNamelessModule fields → IsBlamed w fields fields
  | stripped {stripped : Json} {o : Fields} :
      w.kinds.kindName (.obj fields) ≠ .ok (some SyntaxKind.moduleDeclaration.name) →
      Node.strip w.kinds (.obj fields) = .ok stripped → o ∈ stripped.objects → IsBlamed w fields o

/-- A tree from which no way leads on blames nothing. -/
theorem tree_blames {context v : Json} (hend : w.IsDeadEnd .tree v) :
    (w.tree context v).Blames P := by
  have hnone : ∀ u, (w.noStatements u).Blames P := fun u =>
    (Walk.blames_ofExcept (Node.kindName_notNameless _ _)).bind fun _ _ =>
      Walk.blames_fail fun _ h => by cases h
  cases v with
  | obj fields =>
    rw [tree_obj]
    cases hlist : lookup "statements" fields with
    | arr vs =>
      cases vs with
      | nil => exact Walk.ensures_pure trivial
      | cons v rest =>
        -- from a list with a statement in it a way leads to the first one
        have hfirst : lookup "statements" fields = .arr ([] ++ v :: rest) := hlist
        cases hend (.listed hfirst (.here .statement v))
    | _ => exact hnone _
  | _ => exact hnone _

/-- A module that is entered has a name and flags; one without a name is blamed itself. -/
theorem enterModule_blames {fields : Fields}
    (hkind : w.kinds.kindName (.obj fields) = .ok (some SyntaxKind.moduleDeclaration.name))
    (context : Json) :
    (w.enterModule fields context).Ensures (fun _ => True)
      (fun _ => ∃ name flags, Node.identifierText (lookup "name" fields) = some name ∧
        flagsOf (lookup "flags" fields) = .ok flags)
      (Fault.Blames (w.IsBlamed fields)) := by
  unfold enterModule
  split
  next hname =>
    exact Walk.blames_giveUp (.module ⟨hkind, hname⟩)
  next name hname =>
    refine (Walk.blames_ofExcept (Node.flagsOf_notNameless _)).bind fun flags hflags => ?_
    have hentered : ∀ entered : Json × Json, (pure entered : Walk (Json × Json)).Ensures
        (fun _ => True) (fun _ => ∃ name flags,
          Node.identifierText (lookup "name" fields) = some name ∧
          flagsOf (lookup "flags" fields) = .ok flags) (Fault.Blames (w.IsBlamed fields)) :=
      fun _ => Walk.ensures_pure ⟨name, flags, hname, hflags⟩
    dsimp only
    split
    · exact Walk.blames_push.bind fun _ _ => hentered _
    · exact hentered _

/-- What is blamed for a statement from which no way leads on. -/
theorem statement_blames {context : Json} {fields : Fields}
    (hend : w.IsDeadEnd .statement (.obj fields)) :
    (w.statement context (.obj fields)).Blames (w.IsBlamed fields) := by
  rw [statement_obj]
  refine (Walk.blames_ofExcept (Node.kindName_notNameless _ _)).bind fun kind hkind => ?_
  unfold dispatch
  split
  · exact Walk.ensures_log fun _ => trivial
  next collector hstep =>
    refine collect_blames (fun stripped hstrip o ho => .stripped ?_ hstrip ho) collector context
    rw [hkind]
    intro hmodule
    rw [Except.ok.inj hmodule] at hstep
    cases hstep
  next hstep =>
    obtain ⟨name, rfl, hstep⟩ := Option.bind_eq_some_iff.mp hstep
    rw [StatementKind.ofName?_eq_module hstep] at hkind
    refine (enterModule_blames hkind context).bind fun entered hentered => ?_
    obtain ⟨name, flags, hname, hflags⟩ := hentered
    by_cases hbody : (lookup "body" fields).truthy = true
    · rw [moduleBody_eq w hbody]
      refine (Walk.ensures_log fun _ => trivial).bind fun _ _ =>
        (Walk.blames_ofExcept (Node.kindName_notNameless _ _)).bind fun kind hkind' => ?_
      -- into a body whose kind has a name there is a way
      cases hend (.body hkind hname hflags hbody hkind' (.here _ _))
    · unfold moduleBody
      rw [if_neg hbody]
      exact Walk.ensures_pure trivial

/-- **Who is blamed for a walk that ends for want of a name.** The walk of a value comes, without
fail, to a statement, and what it keeps is blamed for that. -/
theorem walkAs_blames {context v node : Json} {role : Role} {drawn : Nat}
    (h : (w.walkAs context role v drawn).result = .error (.unresolvableName node)) :
    ∃ way fields blamed, w.Leads role v way .statement (.obj fields) ∧
      (w.walkWay context way drawn).result = .ok () ∧ w.IsBlamed fields blamed ∧
      node = .obj blamed := by
  obtain ⟨way, place, u, hleads, hend, hway, hfault⟩ := walkAs_failsAtEnd h
  cases place with
  | tree =>
    obtain ⟨_, -, hfalse⟩ := (tree_blames (P := fun _ => False) hend _).2.2 _ hfault node rfl
    exact hfalse.elim
  | statement =>
    cases u with
    | obj fields =>
      obtain ⟨blamed, hnode, hblamed⟩ := (statement_blames hend _).2.2 _ hfault node rfl
      exact ⟨way, fields, blamed, hleads, hway, hblamed, hnode⟩
    | _ => cases hfault

/-- A walk that comes to a module without a name ends there, and keeps the module as it stands. -/
theorem Leads.walkAs_nameless {role : Role} {v context : Json} {way : List Leg} {fields : Fields}
    (h : w.Leads role v way .statement (.obj fields)) {drawn : Nat}
    (hway : (w.walkWay context way drawn).result = .ok ()) (hmodule : w.IsNamelessModule fields) :
    (w.walkAs context role v drawn).result = .error (.unresolvableName (.obj fields)) := by
  have hstatement : ∀ context drawn, (w.walkAs context .statement (.obj fields) drawn).result =
      .error (.unresolvableName (.obj fields)) := by
    intro context drawn
    show (w.statement context (.obj fields) drawn).result = _
    rw [statement_obj, hmodule.1, Walk.ofExcept_ok, pure_bind]
    show ((w.enterModule fields context >>= w.moduleBody fields) drawn).result = _
    unfold enterModule
    rw [hmodule.2]
    rfl
  rw [h.walkAs_failed hway (hstatement _ _)]

/-- **What is kept of a missing name.** Let a walk end for want of a name, whatever the tree, the
context, the settings and the table. Then it came, without fail, to a statement, and ends there. If
that is no module, the node that is kept is the stripped statement or an object in it: it is clean
at every depth, and the message ends in the name of its kind. A module is kept as it stands in the
tree, with its offsets, flags and parent, and the message has whatever tag its kind is. This goes
for every module without a name: a walk that comes to one ends there and keeps it so. -/
theorem walk_unresolvableName (w : Walker) (tree : Json) (context : Option Json) (drawn : Nat) :
    let outer := context.getD (.str w.rootContext)
    let result := (w.walk tree context drawn).result
    (∀ node, result = .error (.unresolvableName node) →
      ∃ way fields, w.Leads .tree tree way .statement (.obj fields) ∧
        (w.walkWay outer way drawn).result = .ok () ∧
        ((w.kinds.kindName (.obj fields) ≠ .ok (some SyntaxKind.moduleDeclaration.name) ∧
            Node.IsShowable node ∧ ∃ stripped, Node.strip w.kinds (.obj fields) = .ok stripped ∧
              ∃ o ∈ stripped.objects, node = .obj o) ∨
          (w.IsNamelessModule fields ∧ node = .obj fields))) ∧
    ∀ way fields, w.Leads .tree tree way .statement (.obj fields) →
      (w.walkWay outer way drawn).result = .ok () → w.IsNamelessModule fields →
      result = .error (.unresolvableName (.obj fields)) := by
  intro outer result
  constructor
  · intro node h
    have hfault : (w.walkAs outer .tree tree drawn).result = .error (.unresolvableName node) := h
    obtain ⟨way, fields, blamed, hleads, hway, hblamed, rfl⟩ := walkAs_blames hfault
    refine ⟨way, fields, hleads, hway, ?_⟩
    cases hblamed with
    | module hmodule => exact .inr ⟨hmodule, rfl⟩
    | stripped hkind hstrip ho =>
      exact .inl ⟨hkind, Node.isShowable_of_strip hstrip ho, _, hstrip, _, ho, rfl⟩
  · intro way fields hleads hway hmodule
    exact hleads.walkAs_nameless hway hmodule

/-- In a namespace, behind a function, stands an import one of whose names is missing. The element
is kept, stripped. Behind another function stands a module without a name, which is kept as it
stands. -/
theorem walk_unresolvableName_element :
    let w : Walker := ⟨"root", "namespace$", "import$", 32, KindTable.standard, .counted⟩
    let function : Json := .obj [("kind", .int 262), ("name", .obj [("text", .str "f")])]
    let element : Json := .obj [("kind", .int 276), ("pos", .int 9), ("end", .int 9)]
    let importNode : Json := .obj [("kind", .int 272),
      ("moduleSpecifier", .obj [("text", .str "m")]),
      ("importClause", .obj [("namedBindings", .obj [("elements", .arr [element])])])]
    let namespaceNode : Json := .obj [("kind", .int 267), ("flags", .int 32),
      ("name", .obj [("text", .str "A")]),
      ("body", .obj [("statements", .arr [function, importNode])])]
    let module : Fields := [("kind", .int 267), ("flags", .int 8), ("pos", .int 1)]
    let inside : Json := .obj [("statements", .arr [namespaceNode])]
    let outside : Json := .obj [("statements", .arr [function, .obj module])]
    let kept : Json := .obj [("kind", .str "ImportSpecifier")]
    ((w.walk inside none 0).result = .error (.unresolvableName kept) ∧ Node.IsShowable kept ∧
      ∃ way fields, w.Leads .tree inside way .statement (.obj fields)) ∧
      (w.walk outside none 0).result = .error (.unresolvableName (.obj module)) := by
  intro w function element importNode namespaceNode module inside outside kept
  constructor
  · have hfault : (w.walk inside none 0).result = .error (.unresolvableName kept) := rfl
    obtain ⟨way, fields, hleads, -, ⟨-, hshowable, -⟩ | ⟨⟨hkind, -⟩, hmodule⟩⟩ :=
      (w.walk_unresolvableName inside none 0).1 kept hfault
    · exact ⟨hfault, hshowable, way, fields, hleads⟩
    · obtain rfl := Json.obj.inj hmodule
      exact absurd (Option.some.inj (Except.ok.inj hkind)) (by decide)
  · have hlist : lookup "statements" [("statements", Json.arr [function, .obj module])] =
        .arr ([function] ++ .obj module :: []) := rfl
    exact (w.walk_unresolvableName outside none 0).2 [.past [function]] module
      (.listed hlist (.here .statement _)) rfl ⟨rfl, rfl⟩

/-- Of a module without a name the offsets and the tag are kept, and the message shows the tag. -/
theorem walk_unresolvableName_tagged :
    let w : Walker := ⟨"root", "namespace$", "import$", 32, KindTable.standard, .counted⟩
    let module : Json := .obj [("kind", .int 267), ("pos", .int 0), ("end", .int 9)]
    let outcome := w.walk (.obj [("statements", .arr [module])]) none 0
    outcome.result = .error (.unresolvableName module) ∧ ¬ Node.IsShowable module ∧
      (Fault.unresolvableName module).message? = some "Unable to resolve a name for 267" := by
  refine ⟨rfl, fun hshowable => ?_, by decide +kernel⟩
  have hclean := (Json.eachObject_obj.mp hshowable.1).1.1
  exact absurd (hclean ("pos", .int 0) (by simp)) (by decide)

end Walker

end DeclCatalogue
