import DeclCatalogue.Proofs.Walk.AllOrNothing
import DeclCatalogue.Proofs.Walk.Scopes
import DeclCatalogue.Proofs.Walk.View
import DeclCatalogue.Proofs.Walk.Ways

/-!
# Where the types of variables are looked for

A record of a variable says where its type is to be looked for: in the root context, if the type has
a plain name, or in what stands in front of the last part of its name, if that is qualified. What
`IsRecordOf` says of a record settles which of the two it has (`IsRecordOf.contexts`).

The two sides of a qualified name are not treated alike. Without a name on the right the variable is
refused, and the whole statement with it: nothing of it is pushed (`collectVariables_refused`).
Without a name on the left it is recorded, and says nowhere where its type is to be looked for.
`walk_typeContexts` has both, for every walk.
-/

namespace DeclCatalogue

open Json (lookup)

/-! ## Names are never empty -/

namespace Node

theorem truthy_of_present? {v u : Json} (h : v.present? = some u) : u.truthy = true := by
  unfold Json.present? at h
  split at h
  next htruthy => rwa [← Option.some.inj h]
  next => cases h

theorem truthy_of_orElse {a b : Option Json} {u : Json} (ha : a = some u → u.truthy = true)
    (hb : b = some u → u.truthy = true) (h : (a <|> b) = some u) : u.truthy = true := by
  cases a with
  | none => exact hb h
  | some v => exact ha h

theorem truthy_of_identifierText {v u : Json} (h : identifierText v = some u) :
    u.truthy = true := by
  cases v with
  | obj fields => exact truthy_of_orElse truthy_of_present? truthy_of_present? h
  | _ => cases h

/-- Between the two sides of a name there is a point. -/
theorem truthy_of_dotted {left right : Option Json} {u : Json} (h : dotted left right = some u) :
    u.truthy = true := by
  unfold dotted at h
  split at h
  · rw [← Option.some.inj h]
    simp [Json.truthy]
  · cases h

/-- A name counts as present: it is neither null nor an empty text. -/
theorem truthy_of_entityName {v u : Json} (h : entityName v = some u) : u.truthy = true := by
  cases v with
  | obj fields =>
    rw [entityName_obj] at h
    exact truthy_of_orElse truthy_of_identifierText
      (truthy_of_orElse truthy_of_dotted truthy_of_dotted) h
  | _ => cases h

end Node

/-! ## Records -/

/-- The record says where the type of the variable is to be looked for: exactly one of its two
contexts is set. -/
def VariableRecord.IsPlaced (record : VariableRecord) : Prop :=
  record.context.isSome ≠ record.valueContext.isSome

namespace VariableRecord.IsRecordOf

variable {record : VariableRecord} {rootContext : String} {declaration : Json}

/-- A type with a plain name is looked for in the root context. -/
theorem contexts_of_plain (h : record.IsRecordOf rootContext declaration)
    (hplain : Node.isQualified (Node.typeName declaration) = false) :
    record.context = some rootContext ∧ record.valueContext = none := by
  have hcontext := h.context
  have hvalue := h.valueContext
  rw [if_neg (by simp [hplain])] at hcontext hvalue
  refine ⟨hcontext, ?_⟩
  cases hset : record.valueContext with
  | none => rfl
  | some text =>
    rw [hset] at hvalue
    cases hvalue

/-- A type with a qualified name is looked for in what the left side of the name is called. If that
is not called anything, it is looked for nowhere. -/
theorem contexts_of_qualified (h : record.IsRecordOf rootContext declaration)
    (hqualified : Node.isQualified (Node.typeName declaration) = true) :
    record.context = none ∧ record.valueContext ≠ some "" ∧
      Node.entityName ((Node.typeName declaration).field "left") =
        record.valueContext.map Json.str := by
  have hcontext := h.context
  have hvalue := h.valueContext
  rw [if_pos hqualified] at hcontext hvalue
  refine ⟨hcontext, ?_⟩
  cases hleft : Node.entityName ((Node.typeName declaration).field "left") with
  | none =>
    rw [hleft] at hvalue
    cases hset : record.valueContext with
    | none => exact ⟨fun h => (by cases h), rfl⟩
    | some text =>
      rw [hset] at hvalue
      cases hvalue
  | some v =>
    -- what is set is the name itself, and a name counts as present
    have htruthy := Node.truthy_of_entityName hleft
    rw [hleft, Option.getD_some] at hvalue
    rw [hvalue] at htruthy ⊢
    cases hset : record.valueContext with
    | none =>
      rw [hset] at htruthy
      cases htruthy
    | some text =>
      refine ⟨fun hempty => ?_, rfl⟩
      rw [hset, hempty] at htruthy
      cases htruthy

/-- Every record is placed, but for those of types whose name has a left side that is not called
anything. -/
theorem isPlaced_iff (h : record.IsRecordOf rootContext declaration) :
    record.IsPlaced ↔ (Node.isQualified (Node.typeName declaration) = true →
      Node.entityName ((Node.typeName declaration).field "left") ≠ none) := by
  unfold VariableRecord.IsPlaced
  cases hqualified : Node.isQualified (Node.typeName declaration) with
  | false =>
    obtain ⟨hcontext, hvalue⟩ := h.contexts_of_plain hqualified
    simp [hcontext, hvalue]
  | true =>
    obtain ⟨hcontext, -, hleft⟩ := h.contexts_of_qualified hqualified
    rw [hcontext, hleft]
    cases record.valueContext <;> simp

end VariableRecord.IsRecordOf

/-! ## Variables that are refused -/

/-- A variable that is refused: it has a name, the name of its type has two sides, and the right one
is not called anything. -/
structure Node.IsRefused (declaration : Json) : Prop where
  named : ∃ name, identifierText (declaration.field "name") = some name
  qualified : isQualified (typeName declaration) = true
  nameless : identifierText ((typeName declaration).field "right") = none

/-- Without a name for the type there is no record. -/
theorem VariableRecord.make_nameless (context : Option String) (name : Json)
    (valueContext : Option Json) : ∃ issues,
      VariableRecord.make context name none valueContext = .invalid issues ∧
        ⟨["value"], .emptyText⟩ ∈ issues := by
  unfold VariableRecord.make
  -- what the other two fields come to only adds to the issues
  generalize (Checked.name name).under "name" = first
  generalize (Checked.optional Checked.text (valueContext.getD .null)).under "value_context" = last
  cases first <;> cases last <;> exact ⟨_, rfl, by simp⟩

namespace Walker

variable {w : Walker} {context declaration : Json}

/-- A variable that is refused is reported, with the name of its type as what is wrong. -/
theorem shapeVariable_refused (w : Walker) (context : Json) (h : Node.IsRefused declaration) :
    ∃ issues, ⟨["value"], .emptyText⟩ ∈ issues ∧ ∀ drawn,
      w.shapeVariable context declaration drawn =
        ⟨[], drawn, .error (.invalid ⟨VariableRecord.subject, issues⟩)⟩ := by
  obtain ⟨⟨name, hname⟩, hqualified, hright⟩ := h
  have hleft : ((Node.typeName declaration).field "left").truthy = true :=
    (Bool.and_eq_true_iff.mp hqualified).1
  -- a name with two sides is there, and it is an object
  have hnamed : w.shapeVariable context declaration = _ :=
    shapeVariable_named (Json.truthy_of_field hleft) (Json.exists_fields_of_field hleft) hname
  obtain ⟨issues, hmake, hissue⟩ := VariableRecord.make_nameless none name
    (Node.entityName ((Node.typeName declaration).field "left"))
  refine ⟨issues, hissue, fun drawn => ?_⟩
  rw [hnamed, VariableRecord.check, if_pos hqualified, hright, hmake]
  rfl

/-- If one variable of a list fails, all of them do. -/
theorem shapeVariables_failed {declarations : List Json} (hmem : declaration ∈ declarations)
    (h : ∀ drawn, ∃ fault, (w.shapeVariable context declaration drawn).result = .error fault)
    (drawn : Nat) :
    ∃ fault, (w.shapeVariables context declarations drawn).result = .error fault := by
  induction declarations generalizing drawn with
  | nil => cases hmem
  | cons v rest ih =>
    rw [shapeVariables]
    cases hfirst : (w.shapeVariable context v drawn).result with
    | error fault => exact ⟨fault, by rw [Walk.bind_apply_error hfirst]⟩
    | ok record =>
      rw [Walk.bind_apply_ok hfirst]
      rcases List.mem_cons.mp hmem with rfl | hmem
      · obtain ⟨fault, hfault⟩ := h drawn
        rw [hfirst] at hfault
        cases hfault
      · obtain ⟨fault, hfault⟩ := ih hmem (w.shapeVariable context v drawn).drawn
        exact ⟨fault, by rw [Walk.bind_apply_error hfault]⟩

/-- Once the variables of a statement are found, they are shaped and pushed. -/
theorem collectVariables_listed {node list : Json} {fields : Fields} {listed : List Json}
    (hstrip : Node.strip w.kinds node = .ok (.obj fields))
    (hlist : Node.getPresent (lookup "declarationList" fields) "declarations" = .ok list)
    (hitems : Node.items list = .ok listed) (context : Json) :
    w.collectVariables node context = (do
      let records ← w.shapeVariables context listed
      Walk.forEach (fun record => Walk.push (.variableRecord record context)) records) := by
  have hlisted : (do Node.items (← Node.getPresent (lookup "declarationList" fields)
      "declarations")) = .ok listed := by
    rw [hlist]
    exact hitems
  unfold collectVariables strippedFields
  rw [hstrip, Walk.ofExcept_ok, pure_bind, pure_bind, hlisted, Walk.ofExcept_ok, pure_bind]

/-- **A statement with a variable that is refused is refused,** and nothing of it is pushed. -/
theorem collectVariables_refused {node : Json}
    (hlisted : Node.ListsVariable w.kinds node declaration) (h : Node.IsRefused declaration)
    (context : Json) (drawn : Nat) :
    ∃ fault, (w.collectVariables node context drawn).result = .error fault ∧
      Event.pushes (w.collectVariables node context drawn).events = [] := by
  obtain ⟨fields, list, listed, hstrip, hlist, hitems, hmem⟩ := hlisted
  have hshape : ∀ drawn, ∃ fault, (w.shapeVariable context declaration drawn).result =
      .error fault := by
    obtain ⟨issues, -, hrefused⟩ := w.shapeVariable_refused context h
    exact fun drawn => ⟨_, by rw [hrefused drawn]⟩
  obtain ⟨fault, hfault⟩ := shapeVariables_failed hmem hshape drawn
  -- shaping is silent, and behind it nothing is done any more
  have hsilent : ∀ e ∈ (w.shapeVariables context listed drawn).events, e.call = none :=
    (shapeVariables_ensures (fun _ => rfl) context listed drawn).1
  rw [collectVariables_listed hstrip hlist hitems, Walk.bind_apply_error hfault]
  refine ⟨fault, rfl, ?_⟩
  rw [← Event.pushes_call, List.filterMap_eq_nil_iff.mpr hsilent]
  rfl

/-- A walk that comes to a statement with a variable that is refused ends there, and has pushed what
is pushed on the way. -/
theorem Leads.walkAs_refused {role : Role} {v : Json} {way : List Leg} {fields : Fields}
    (h : w.Leads role v way .statement (.obj fields)) {drawn : Nat}
    (hway : (w.walkWay context way drawn).result = .ok ())
    (hkind : w.kinds.kindName (.obj fields) = .ok (some SyntaxKind.variableStatement.name))
    (hlisted : Node.ListsVariable w.kinds (.obj fields) declaration)
    (hrefused : Node.IsRefused declaration) :
    ∃ fault, (w.walkAs context role v drawn).result = .error fault ∧
      Event.pushes (w.walkAs context role v drawn).events =
        Event.pushes (w.walkWay context way drawn).events := by
  have hstep : (some SyntaxKind.variableStatement.name).bind StatementKind.ofName? =
      some (.recorded .variableStatement) := rfl
  have hstatement : ∀ context, w.walkAs context .statement (.obj fields) =
      w.collectVariables (.obj fields) context := by
    intro context
    show w.statement context (.obj fields) = _
    rw [statement_obj, hkind, Walk.ofExcept_ok, pure_bind]
    unfold dispatch
    rw [hstep]
    rfl
  obtain ⟨fault, hfault, hnone⟩ := collectVariables_refused hlisted hrefused
    (w.wayContext context way) (w.walkWay context way drawn).drawn
  rw [← hstatement] at hfault hnone
  rw [h.walkAs_failed hway hfault]
  refine ⟨fault, rfl, ?_⟩
  show Event.pushes (_ ++ _) = _
  rw [Event.pushes_append, hnone, List.append_nil]

/-- **Recorded variables and where their types are looked for.** Whatever is walked, and however the
walk ends, every variable that is pushed is one that a statement in reach lists. If the name of its
type is plain, the root context is set and nothing else. If it is qualified, what is set is the name
of its left side, which is never empty, and nothing else. So exactly one of the two contexts is set,
except where the left side of a qualified name is not called anything: then neither is.

A right side that is not called anything is not let pass. A walk that comes to a statement which
lists such a variable, under a name of its own, ends there with a fault, and has pushed nothing of
the statement. -/
theorem walk_typeContexts (w : Walker) (tree : Json) (context : Option Json) (drawn : Nat) :
    let outer := context.getD (.str w.rootContext)
    let outcome := w.walk tree context drawn
    (∀ record under, Push.variableRecord record under ∈ Event.pushes outcome.events →
      ∃ node declaration, Node.Reaches tree node ∧ Node.ListsVariable w.kinds node declaration ∧
        record.IsRecordOf w.rootContext declaration ∧
        let typeName := Node.typeName declaration
        let left := Node.entityName (typeName.field "left")
        (Node.isQualified typeName = false →
          record.context = some w.rootContext ∧ record.valueContext = none) ∧
        (Node.isQualified typeName = true →
          record.context = none ∧ record.valueContext ≠ some "" ∧
            left = record.valueContext.map Json.str) ∧
        (record.IsPlaced ↔ (Node.isQualified typeName = true → left ≠ none))) ∧
    ∀ way fields declaration, w.Leads .tree tree way .statement (.obj fields) →
      (w.walkWay outer way drawn).result = .ok () →
      w.kinds.kindName (.obj fields) = .ok (some SyntaxKind.variableStatement.name) →
      Node.ListsVariable w.kinds (.obj fields) declaration → Node.IsRefused declaration →
      ∃ fault, outcome.result = .error fault ∧
        Event.pushes outcome.events = Event.pushes (w.walkWay outer way drawn).events := by
  intro outer outcome
  constructor
  · intro record under hpushed
    have hevent : Event.pushed (.variableRecord record under) ∈ outcome.events := mem_pushes hpushed
    obtain ⟨node, declaration, hreach, hlisted, hrecord⟩ :=
      (tree_ensures w.walkRule_variables outer tree drawn).1 _ hevent record under rfl
    exact ⟨node, declaration, hreach, hlisted, hrecord, hrecord.contexts_of_plain,
      hrecord.contexts_of_qualified, hrecord.isPlaced_iff⟩
  · intro way fields declaration hleads hway hkind hlisted hrefused
    exact hleads.walkAs_refused hway hkind hlisted hrefused

/-- A variable of type `A.B` behind one of type `T`. In the other tree there is, behind the same
statement, one whose variable has an empty right side in the name of its type. -/
theorem walk_typeContexts_qualified :
    let w : Walker := ⟨"root", "namespace$", "import$", 32, KindTable.standard, .counted⟩
    let named (text : String) : Json := .obj [("text", .str text)]
    let binding (typeName : Json) : Json :=
      .obj [("name", named "x"), ("type", .obj [("typeName", typeName)])]
    let qualified (right : Json) : Json := binding (.obj [("left", named "A"), ("right", right)])
    let listing (declarations : List Json) : Fields := [("kind", .int 243),
      ("declarationList", .obj [("declarations", .arr declarations)])]
    let first : Json := .obj (listing [binding (named "T"), qualified (named "B")])
    let refused : Json := qualified (named "")
    let good : Json := .obj [("statements", .arr [first])]
    let bad : Json := .obj [("statements", .arr [first, .obj (listing [refused])])]
    let record : VariableRecord := ⟨none, ⟨"x", by decide⟩, ⟨"B", by decide⟩, some "A"⟩
    (Push.variableRecord record (.str "root") ∈ Event.pushes (w.walk good none 0).events ∧
      ∃ declaration, Node.isQualified (Node.typeName declaration) = true ∧
        record.IsRecordOf w.rootContext declaration ∧ record.IsPlaced) ∧
      ∃ fault, (w.walk bad none 0).result = .error fault ∧
        (Event.pushes (w.walk bad none 0).events).length = 2 := by
  intro w named binding qualified listing first refused good bad record
  constructor
  · have hpushed : Push.variableRecord record (.str "root") ∈
        Event.pushes (w.walk good none 0).events := by decide +kernel
    obtain ⟨-, declaration, -, -, hrecord, hplain, hsides, hplaced⟩ :=
      (w.walk_typeContexts good none 0).1 record (.str "root") hpushed
    cases hqualified : Node.isQualified (Node.typeName declaration) with
    | false => cases (hplain hqualified).1
    | true =>
      refine ⟨hpushed, declaration, hqualified, hrecord, hplaced.mpr fun _ hleft => ?_⟩
      rw [(hsides hqualified).2.2] at hleft
      cases hleft
  · have hlist : lookup "statements" [("statements", Json.arr [first, .obj (listing [refused])])] =
        .arr ([first] ++ .obj (listing [refused]) :: []) := rfl
    have hlisted : Node.ListsVariable w.kinds (.obj (listing [refused])) refused :=
      ⟨_, _, [refused], rfl, rfl, rfl, List.mem_singleton.mpr rfl⟩
    obtain ⟨fault, hfault, hpushes⟩ := (w.walk_typeContexts bad none 0).2 [.past [first]] _ refused
      (.listed hlist (.here .statement _)) rfl rfl hlisted ⟨⟨_, rfl⟩, rfl, rfl⟩
    refine ⟨fault, hfault, ?_⟩
    rw [hpushes]
    decide +kernel

/-- A left side with an empty text is not called anything, and the variable is recorded without
either context. -/
theorem walk_typeContexts_unplaced :
    let w : Walker := ⟨"root", "namespace$", "import$", 32, KindTable.standard, .counted⟩
    let typeName : Json := .obj [("kind", .int 166),
      ("left", .obj [("kind", .int 80), ("escapedText", .str "")]),
      ("right", .obj [("kind", .int 80), ("text", .str "B")])]
    let tree : Json := .obj [("statements", .arr [.obj [("kind", .int 243),
      ("declarationList", .obj [("declarations", .arr [.obj [
        ("name", .obj [("text", .str "x")]), ("type", .obj [("typeName", typeName)])]])])]])]
    let record : VariableRecord := ⟨none, ⟨"x", by decide⟩, ⟨"B", by decide⟩, none⟩
    let outcome := w.walk tree none 0
    outcome.result = .ok () ∧ Event.pushes outcome.events = [.variableRecord record (.str "root")] ∧
      ¬ record.IsPlaced := by
  refine ⟨rfl, by decide +kernel, ?_⟩
  simp [VariableRecord.IsPlaced]

end Walker

end DeclCatalogue
