import DeclCatalogue.Proofs.Walk.Congruence
import DeclCatalogue.Proofs.Walk.SessionCatalogue

/-!
# How far a walk comes

A walk goes through lists of statements from the front and never looks ahead, so what it has done
when it fails is settled by what it has passed. `Walker.Leads` describes the way from a tree down to
a statement: past the statements that stand before it in each list, and into the modules around it.
A way knows nothing of what stands behind the statement to which it leads, in any of the lists.

Every walk that fails has gone such a way, to a value at which it fails and from which no way leads
on (`walkAs_failed`). It has done what is to be done on the way, then what that value gives it to
do, and nothing else: `walk_sequential`, with what follows for two trees walked one after the other.
-/

namespace DeclCatalogue

open Json (lookup setField)

/-- An object with these statements, whatever else is in it. -/
def Json.listing (vs : List Json) (fields : Fields) : Json :=
  .obj (setField "statements" (.arr vs) fields)

/-- If a step fails for one of a list, there is a first for which it does. -/
theorem Walk.forEach_failed {α : Type} {step : α → Walk Unit} {xs : List α} {drawn : Nat}
    {fault : Fault} (h : (forEach step xs drawn).result = .error fault) :
    ∃ before x after, xs = before ++ x :: after ∧
      (forEach step before drawn).result = .ok () ∧
      (step x (forEach step before drawn).drawn).result = .error fault := by
  induction xs generalizing drawn with
  | nil => cases h
  | cons x rest ih =>
    rw [forEach] at h
    cases hfirst : (step x drawn).result with
    | error other =>
      rw [bind_apply_error hfirst] at h
      exact ⟨[], x, rest, rfl, rfl, hfirst.trans h⟩
    | ok _ =>
      rw [bind_apply_ok hfirst] at h
      obtain ⟨before, y, after, rfl, hbefore, hy⟩ := ih h
      refine ⟨x :: before, y, after, rfl, ?_⟩
      rw [forEach, bind_apply_ok hfirst]
      exact ⟨hbefore, hy⟩

namespace Walker

variable {w : Walker}

/-! ## Ways -/

/-- A leg of the way from a tree to a statement in it. -/
inductive Leg where
  /-- Past the statements of a list that stand before the one that is next on the way. -/
  | past (before : List Json)
  /-- Into the body of a module or of a namespace. -/
  | into (isNamespace : Bool) (name : Json)

/-- `w.Leads role v way place u`: the walk of `v` comes to `u` by the way, if nothing on the way
fails. A way leads to a statement of a tree and into the body of a module that can be entered. -/
inductive Leads (w : Walker) : Role → Json → List Leg → Role → Json → Prop where
  | here (role : Role) (v : Json) : Leads w role v [] role v
  | listed {fields : Fields} {before after : List Json} {v : Json} {way : List Leg} {place : Role}
      {u : Json} (list : lookup "statements" fields = .arr (before ++ v :: after))
      (rest : Leads w .statement v way place u) :
      Leads w .tree (.obj fields) (.past before :: way) place u
  | body {fields : Fields} {name : Json} {flags : Int} {kind : Option String} {way : List Leg}
      {place : Role} {u : Json}
      (module : w.kinds.kindName (.obj fields) = .ok (some SyntaxKind.moduleDeclaration.name))
      (named : Node.identifierText (lookup "name" fields) = some name)
      (flagged : flagsOf (lookup "flags" fields) = .ok flags)
      (there : (lookup "body" fields).truthy = true)
      (kindName : w.kinds.kindName (lookup "body" fields) = .ok kind)
      (rest : Leads w (bodyRole kind) (lookup "body" fields) way place u) :
      Leads w .statement (.obj fields)
        (.into (decide (commonBits flags w.namespaceFlags ≠ 0)) name :: way) place u

/-- No way leads on from a value. -/
def IsDeadEnd (w : Walker) (role : Role) (v : Json) : Prop :=
  ∀ {way place u}, w.Leads role v way place u → way = []

/-- The context at the end of a leg. -/
def legContext (w : Walker) (context : Json) : Leg → Json
  | .past _ => context
  | .into isNamespace name => w.innerContext isNamespace name

/-- The context at the end of a way. -/
def wayContext (w : Walker) (context : Json) (way : List Leg) : Json :=
  way.foldl w.legContext context

/-- What is done on a leg. -/
def walkLeg (w : Walker) (context : Json) : Leg → Walk Unit
  | .past before => w.statements context before
  | .into isNamespace name => do
    if isNamespace then Walk.push (.namespaceName name)
    Walk.log .debug "Entering module body"
      [("module", name), ("context", w.innerContext isNamespace name)]

/-- What is done on a way, leg by leg. -/
def walkWay (w : Walker) (context : Json) : List Leg → Walk Unit
  | [] => pure ()
  | leg :: rest => do
    w.walkLeg context leg
    w.walkWay (w.legContext context leg) rest

/-- A module that can be entered is entered, and its body is walked. -/
theorem statement_entered {fields : Fields} {name : Json} {flags : Int} {kind : Option String}
    (module : w.kinds.kindName (.obj fields) = .ok (some SyntaxKind.moduleDeclaration.name))
    (named : Node.identifierText (lookup "name" fields) = some name)
    (flagged : flagsOf (lookup "flags" fields) = .ok flags)
    (there : (lookup "body" fields).truthy = true)
    (kindName : w.kinds.kindName (lookup "body" fields) = .ok kind) (context : Json) :
    let leg := Leg.into (decide (commonBits flags w.namespaceFlags ≠ 0)) name
    w.statement context (.obj fields) = (do
      w.walkLeg context leg
      w.walkAs (w.legContext context leg) (bodyRole kind) (lookup "body" fields)) := by
  have hstep : (some SyntaxKind.moduleDeclaration.name).bind StatementKind.ofName? =
      some .module := rfl
  rw [statement_obj, module, Walk.ofExcept_ok, pure_bind]
  unfold dispatch
  rw [hstep]
  dsimp only
  unfold enterModule walkLeg legContext
  rw [named, flagged]
  simp only [Walk.ofExcept_ok, pure_bind, moduleBody_eq w there, kindName]
  cases decide (commonBits flags w.namespaceFlags ≠ 0) <;> simp [bind_assoc]

/-- **A walk goes its way:** first what is to be done on the way, then the value to which it leads,
then whatever is left. -/
theorem Leads.walkAs_eq {role place : Role} {v u : Json} {way : List Leg}
    (h : w.Leads role v way place u) (context : Json) :
    ∃ rest : Walk Unit, w.walkAs context role v = (do
      w.walkWay context way
      w.walkAs (w.wayContext context way) place u
      rest) := by
  induction h generalizing context with
  | here role v => exact ⟨pure (), by rw [walkWay, pure_bind, bind_pure_unit]; rfl⟩
  | @listed fields before after v way place u list rest ih =>
    obtain ⟨next, hnext⟩ := ih context
    refine ⟨do next; w.statements context after, ?_⟩
    show w.tree context (.obj fields) = _
    have hstatement : w.statement context v = w.walkAs context .statement v := rfl
    rw [tree_obj, list]
    show w.statements context _ = _
    rw [statements_append, statements, hstatement, hnext]
    simp only [walkWay, bind_assoc]
    rfl
  | @body fields name flags kind way place u module named flagged there kindName rest ih =>
    obtain ⟨next, hnext⟩ := ih (w.innerContext _ name)
    refine ⟨next, ?_⟩
    show w.statement context (.obj fields) = _
    rw [statement_entered module named flagged there kindName, walkWay, bind_assoc]
    exact bind_congr fun _ => hnext

/-- A walk that comes to a value at which it fails has done what is on the way and what the value
gives it to do. What the tree holds besides has no part in it. -/
theorem Leads.walkAs_failed {role place : Role} {v u context : Json} {way : List Leg}
    (h : w.Leads role v way place u) {drawn : Nat} {fault : Fault}
    (hway : (w.walkWay context way drawn).result = .ok ())
    (hfault : (w.walkAs (w.wayContext context way) place u
      (w.walkWay context way drawn).drawn).result = .error fault) :
    w.walkAs context role v drawn =
      let before := w.walkWay context way drawn
      let own := w.walkAs (w.wayContext context way) place u before.drawn
      ⟨before.events ++ own.events, own.drawn, .error fault⟩ := by
  obtain ⟨rest, hrest⟩ := h.walkAs_eq context
  rw [hrest, Walk.bind_apply_ok hway, Walk.bind_apply_error hfault]

/-! ## Walks that fail -/

/-- The walk of a value comes, without fail, to a value from which no way leads on, and fails there
with the fault. -/
def FailsAtEnd (w : Walker) (context : Json) (role : Role) (v : Json) (drawn : Nat)
    (fault : Fault) : Prop :=
  ∃ way place u, w.Leads role v way place u ∧ w.IsDeadEnd place u ∧
    (w.walkWay context way drawn).result = .ok () ∧
    (w.walkAs (w.wayContext context way) place u
      (w.walkWay context way drawn).drawn).result = .error fault

/-- What fails behind a leg that does not fail. -/
theorem FailsAtEnd.leg {context : Json} {role next : Role} {v u : Json} {leg : Leg}
    {drawn : Nat} {fault : Fault}
    (hlead : ∀ {way place t}, w.Leads next u way place t → w.Leads role v (leg :: way) place t)
    (hleg : (w.walkLeg context leg drawn).result = .ok ())
    (h : w.FailsAtEnd (w.legContext context leg) next u (w.walkLeg context leg drawn).drawn fault) :
    w.FailsAtEnd context role v drawn fault := by
  obtain ⟨way, place, t, hleads, hend, hway, hfault⟩ := h
  refine ⟨leg :: way, place, t, hlead hleads, hend, ?_⟩
  rw [walkWay, Walk.bind_apply_ok hleg]
  exact ⟨hway, hfault⟩

/-- A tree fails at one of its statements. -/
theorem failsAtEnd_tree {fields : Fields} {vs : List Json}
    (hlist : lookup "statements" fields = .arr vs) {context : Json} {drawn : Nat} {fault : Fault}
    (hstatement : ∀ v ∈ vs, ∀ drawn, (w.statement context v drawn).result = .error fault →
      w.FailsAtEnd context .statement v drawn fault)
    (hfault : (w.tree context (.obj fields) drawn).result = .error fault) :
    w.FailsAtEnd context .tree (.obj fields) drawn fault := by
  rw [tree_obj, hlist, listed, statements_eq_forEach] at hfault
  obtain ⟨before, v, after, rfl, hbefore, hv⟩ := Walk.forEach_failed hfault
  rw [← statements_eq_forEach] at hbefore hv
  refine FailsAtEnd.leg (.listed hlist) hbefore ?_
  exact hstatement v (List.mem_append_right _ (List.mem_cons_self ..)) _ hv

/-- A module that can be entered fails in its body. -/
theorem failsAtEnd_body {fields : Fields} {name : Json} {flags : Int} {kind : Option String}
    (module : w.kinds.kindName (.obj fields) = .ok (some SyntaxKind.moduleDeclaration.name))
    (named : Node.identifierText (lookup "name" fields) = some name)
    (flagged : flagsOf (lookup "flags" fields) = .ok flags)
    (there : (lookup "body" fields).truthy = true)
    (kindName : w.kinds.kindName (lookup "body" fields) = .ok kind)
    {context : Json} {drawn : Nat} {fault : Fault}
    (hbody : ∀ context drawn,
      (w.walkAs context (bodyRole kind) (lookup "body" fields) drawn).result = .error fault →
        w.FailsAtEnd context (bodyRole kind) (lookup "body" fields) drawn fault)
    (hfault : (w.statement context (.obj fields) drawn).result = .error fault) :
    w.FailsAtEnd context .statement (.obj fields) drawn fault := by
  have hleg : (w.walkLeg context
      (.into (decide (commonBits flags w.namespaceFlags ≠ 0)) name) drawn).result = .ok () := by
    cases decide (commonBits flags w.namespaceFlags ≠ 0) <;> rfl
  rw [statement_entered module named flagged there kindName, Walk.bind_apply_ok hleg] at hfault
  exact FailsAtEnd.leg (.body module named flagged there kindName) hleg (hbody _ _ hfault)

/-- A value as what it is taken for, and as statements what is listed in it. -/
private theorem walk_failsAtEnd (w : Walker) (v : Json) :
    (∀ role context drawn fault, (w.walkAs context role v drawn).result = .error fault →
      w.FailsAtEnd context role v drawn fault) ∧
    ∀ vs, v = .arr vs → ∀ u ∈ vs, ∀ context drawn fault,
      (w.statement context u drawn).result = .error fault →
        w.FailsAtEnd context .statement u drawn fault := by
  have hdead : ∀ {v} role context drawn fault, w.IsDeadEnd role v →
      (w.walkAs context role v drawn).result = .error fault →
        w.FailsAtEnd context role v drawn fault :=
    fun role context drawn fault hend hfault =>
      ⟨[], role, _, .here role _, hend, rfl, hfault⟩
  induction v using Json.induct_lookup with
  | obj fields ih =>
    refine ⟨fun role context drawn fault hfault => ?_, fun vs h => by cases h⟩
    by_cases hend : w.IsDeadEnd role (.obj fields)
    · exact hdead role context drawn fault hend hfault
    · -- a way that leads on says what stands on it
      simp only [IsDeadEnd, not_forall] at hend
      obtain ⟨way, place, u, hleads, hway⟩ := hend
      cases hleads with
      | here => exact absurd rfl hway
      | listed list rest =>
        exact failsAtEnd_tree list
          (fun v hv drawn => (ih "statements").2 _ list v hv context drawn fault) hfault
      | body module named flagged there kindName rest =>
        exact failsAtEnd_body module named flagged there kindName
          (fun context drawn => (ih "body").1 _ context drawn fault) hfault
  | arr vs ih =>
    refine ⟨fun role context drawn fault => hdead role context drawn fault ?_, ?_⟩
    · intro way place u hleads
      cases hleads
      rfl
    · intro us hus u hu context drawn fault
      obtain rfl := Json.arr.inj hus
      exact (ih u hu).1 .statement context drawn fault
  | _ =>
    refine ⟨fun role context drawn fault => hdead role context drawn fault ?_, fun _ h => by cases h⟩
    intro way place u hleads
    cases hleads
    rfl

/-- **A walk fails at the end of a way.** -/
theorem walkAs_failsAtEnd {context v : Json} {role : Role} {drawn : Nat} {fault : Fault}
    (h : (w.walkAs context role v drawn).result = .error fault) :
    w.FailsAtEnd context role v drawn fault :=
  (w.walk_failsAtEnd v).1 role context drawn fault h

/-! ## One tree after the other -/

/-- A tree with two lists in a row is walked like a tree with the first one and then a tree with the
second one. -/
theorem walk_listing_append (w : Walker) (context : Option Json) (us vs : List Json)
    (f g h : Fields) :
    w.walk (.listing (us ++ vs) h) context = (do
      w.walk (.listing us f) context
      w.walk (.listing vs g) context) := by
  have hlisting : ∀ (ts : List Json) (fields : Fields), w.walk (.listing ts fields) context =
      w.statements (context.getD (.str w.rootContext)) ts := by
    intro ts fields
    show w.tree _ (.obj (setField "statements" (.arr ts) fields)) = _
    rw [tree_obj, Json.lookup_setField_self]
    rfl
  rw [hlisting, hlisting, hlisting, statements_append]

/-- **A walk is sequential and never looks ahead.** Walking a tree with the statements of two lists
does what walking the first list does and then, if that did not fail, what walking the second list
does, starting from the tokens that are drawn by then: pushes, reports and log entries. If the first
list fails, its end is the end, and nothing of the second is done. So in a session, walking two trees
one after the other leaves the catalogue that walking them as one leaves.

Whenever the walk of a tree fails, there is a way down to a value from which no way leads on, and at
which it fails. Nothing on the way fails. What the walk has done is what is on the way, the
statements before this one in each list and the namespaces around it, in the order of the source,
and then what the value itself gives it to do. The same is done for every other tree in which this
way leads to this value: it makes no difference what stands behind it in any of the lists. -/
theorem walk_sequential (w : Walker) (context : Option Json) :
    (∀ (us vs : List Json) (f g h : Fields),
      let first := w.walk (.listing us f) context
      let both := w.walk (.listing (us ++ vs) h) context
      (∀ drawn, (first drawn).result = .ok () →
        let second := w.walk (.listing vs g) context (first drawn).drawn
        both drawn = ⟨(first drawn).events ++ second.events, second.drawn, second.result⟩) ∧
      (∀ drawn fault, (first drawn).result = .error fault → both drawn = first drawn) ∧
      ∀ state : SessionState,
        ((first state.drawn).result = .ok () →
          w.stateFrom state [.walk (.listing us f) context, .walk (.listing vs g) context] =
            w.stateFrom state [.walk (.listing (us ++ vs) h) context]) ∧
        ∀ fault, (first state.drawn).result = .error fault →
          w.stateFrom state [.walk (.listing us f) context] =
            w.stateFrom state [.walk (.listing (us ++ vs) h) context]) ∧
    ∀ tree drawn fault, (w.walk tree context drawn).result = .error fault →
      let outer := context.getD (.str w.rootContext)
      ∃ way place u, w.Leads .tree tree way place u ∧ w.IsDeadEnd place u ∧
        let before := w.walkWay outer way drawn
        let own := w.walkAs (w.wayContext outer way) place u before.drawn
        before.result = .ok () ∧ own.result = .error fault ∧
        ∀ other, w.Leads .tree other way place u →
          w.walk other context drawn = ⟨before.events ++ own.events, own.drawn, .error fault⟩ := by
  refine ⟨fun us vs f g h => ?_, fun tree drawn fault hfault => ?_⟩
  · intro first both
    have hboth : both = (do first; w.walk (.listing vs g) context) :=
      w.walk_listing_append context us vs f g h
    have hok : ∀ drawn, (first drawn).result = .ok () →
        let second := w.walk (.listing vs g) context (first drawn).drawn
        both drawn = ⟨(first drawn).events ++ second.events, second.drawn, second.result⟩ := by
      intro drawn hfirst
      rw [hboth, Walk.bind_apply_ok hfirst]
    have herror : ∀ drawn fault, (first drawn).result = .error fault → both drawn = first drawn := by
      intro drawn fault hfirst
      rw [hboth, Walk.bind_apply_error hfirst, ← hfirst]
    refine ⟨hok, herror, fun state => ⟨fun hfirst => ?_, fun fault hfirst => ?_⟩⟩
    · rw [stateFrom_cons, stateFrom_cons, stateFrom_cons]
      show (state.after (first state.drawn)).after _ = state.after (both state.drawn)
      rw [hok state.drawn hfirst]
      unfold SessionState.after
      rw [Event.pushes_append, Catalogue.replay_append]
      rfl
    · rw [stateFrom_cons, stateFrom_cons]
      show state.after (first state.drawn) = state.after (both state.drawn)
      rw [herror state.drawn fault hfirst]
  · intro outer
    have hend : w.FailsAtEnd outer .tree tree drawn fault := walkAs_failsAtEnd hfault
    obtain ⟨way, place, u, hleads, hend, hway, hown⟩ := hend
    exact ⟨way, place, u, hleads, hend, hway, hown, fun other hother =>
      hother.walkAs_failed hway hown⟩

/-- An import without names, and behind it a namespace in which a class without a name stands
between two functions. Both walks together push the placeholder, the namespace and the function
before the class. -/
theorem walk_sequential_namespace :
    let w : Walker := ⟨"root", "namespace$", "import$", 32, KindTable.standard, .counted⟩
    let function (name : String) : Json := .obj [("kind", .int 262),
      ("name", .obj [("text", .str name)])]
    let bare : Json := .obj [("kind", .int 272), ("moduleSpecifier", .obj [("text", .str "m")])]
    let namespaceNode : Json := .obj [("kind", .int 267), ("flags", .int 32),
      ("name", .obj [("text", .str "A")]), ("body", .obj [("statements", .arr
        [function "f", .obj [("kind", .int 263)], function "g"])])]
    let first := w.walk (.listing [bare] []) none 0
    let second := w.walk (.listing [namespaceNode, bare] []) none first.drawn
    let both := w.walk (.listing [bare, namespaceNode, bare] []) none 0
    first.result = .ok () ∧ (Event.pushes both.events).length = 3 ∧
      both = ⟨first.events ++ second.events, second.drawn, second.result⟩ ∧
      ∃ fault, both.result = .error fault ∧ ∃ way place u,
        w.Leads .tree (.listing [bare, namespaceNode, bare] []) way place u ∧
          w.IsDeadEnd place u ∧ (w.walkWay (.str "root") way 0).result = .ok () := by
  intro w function bare namespaceNode first second both
  have hsequential := w.walk_sequential none
  have hfirst : first.result = .ok () := by decide +kernel
  have hfailed : both.result.isOk = false := by decide +kernel
  obtain ⟨fault, hfault⟩ : ∃ fault, both.result = .error fault := by
    cases hresult : both.result with
    | error fault => exact ⟨fault, rfl⟩
    | ok value =>
      rw [hresult] at hfailed
      cases hfailed
  obtain ⟨way, place, u, hleads, hend, hway, -⟩ :=
    hsequential.2 (.listing [bare, namespaceNode, bare] []) 0 fault hfault
  exact ⟨hfirst, by decide +kernel, (hsequential.1 [bare] [namespaceNode, bare] [] [] []).1 0 hfirst,
    fault, hfault, way, place, u, hleads, hend, hway⟩

end Walker

end DeclCatalogue
