import DeclCatalogue.Proofs.Node.Modifier
import DeclCatalogue.Proofs.Node.Strip
import DeclCatalogue.Proofs.Record.Make
import DeclCatalogue.Proofs.Walk.Ensures

/-!
# What the collectors push

Each collector pushes records of its own kind and nothing else. For variables, exports and imports
that is all that is said here. For declarations `Declaration.IsRecordOf` says what a record keeps of
the node that it was made from, and `collectDeclaration_ensures` that every record has it. What is
to be shown of an event of any collector is listed in `collector_ensures`.
-/

namespace DeclCatalogue

open Json (lookup setField EachObject)

/-- The kind of the nodes that a walk records under a heading. -/
def Heading.syntaxKind : Heading → SyntaxKind
  | .functions => .functionDeclaration
  | .interfaces => .interfaceDeclaration
  | .types => .typeAliasDeclaration
  | .classes => .classDeclaration

/-- The statements of a heading's kind go to its collector. -/
theorem StatementKind.ofName?_heading (heading : Heading) :
    ofName? heading.syntaxKind.name = some (.recorded (.declaration heading)) := by
  cases heading <;> rfl

/-- **What a record keeps of a node.** The node of the record is the stripped node with its name
replaced by the name of the record; it is clean, and it carries an export modifier exactly if the
record is marked as exported. -/
structure Declaration.IsRecordOf (record : Declaration) (kinds : KindTable) (heading : Heading)
    (node : Json) : Prop where
  kind : record.kind = heading.kind
  name_ne : record.name.val ≠ ""
  name : lookup "name" record.node = .obj [("text", .str record.name)]
  stripped : ∃ fields, Node.strip kinds node = .ok (.obj fields) ∧
    record.node = setField "name" (.obj [("text", .str record.name)]) fields
  clean : (Json.obj record.node).EachObject Node.IsClean
  exported : record.exported = true ↔ ∃ items, lookup "modifiers" record.node = .arr items ∧
    ∃ node ∈ items, node.field "kind" = .str ModifierKind.exported.name

/-- The name of the type that a variable is declared with. -/
def Node.typeName (declaration : Json) : Json :=
  (declaration.field "type").field "typeName"

/-- Whether the name of a type has two sides. -/
def Node.isQualified (typeName : Json) : Bool :=
  (typeName.field "left").truthy && (typeName.field "right").truthy

/-- **What a record keeps of a variable.** A type with a plain name is looked for in the root
context. One with a qualified name is known by its last part and looked for in what stands in front
of that. -/
structure VariableRecord.IsRecordOf (record : VariableRecord) (rootContext : String)
    (declaration : Json) : Prop where
  name : Node.identifierText (declaration.field "name") = some (.str record.name)
  context : record.context =
    if Node.isQualified (Node.typeName declaration) then none else some rootContext
  value : (if Node.isQualified (Node.typeName declaration) then
      Node.identifierText ((Node.typeName declaration).field "right")
    else Node.entityName (Node.typeName declaration)) = some (.str record.value)
  valueContext : (if Node.isQualified (Node.typeName declaration) then
      Node.entityName ((Node.typeName declaration).field "left")
    else none).getD .null = Json.ofText? record.valueContext

/-- What is checked of a variable, by its name and the name of its type. -/
def VariableRecord.check (rootContext : String) (name typeName : Json) : Checked VariableRecord :=
  if Node.isQualified typeName then
    VariableRecord.make none name (Node.identifierText (typeName.field "right"))
      (Node.entityName (typeName.field "left"))
  else VariableRecord.make (some rootContext) name (Node.entityName typeName) none

/-- What passes the check is a record of the variable. -/
theorem VariableRecord.isRecordOf_of_check {record : VariableRecord} {rootContext : String}
    {declaration name : Json} (hname : Node.identifierText (declaration.field "name") = some name)
    (h : VariableRecord.check rootContext name (Node.typeName declaration) = .valid record) :
    record.IsRecordOf rootContext declaration := by
  unfold VariableRecord.check at h
  by_cases hqualified : Node.isQualified (Node.typeName declaration) = true
  · rw [if_pos hqualified] at h
    obtain ⟨hcontext, rfl, hvalue, hcontainer⟩ := VariableRecord.make_eq_valid.mp h
    refine ⟨hname, ?_, ?_, ?_⟩ <;> rw [if_pos hqualified]
    exacts [hcontext, hvalue, hcontainer]
  · rw [if_neg hqualified] at h
    obtain ⟨hcontext, rfl, hvalue, hcontainer⟩ := VariableRecord.make_eq_valid.mp h
    refine ⟨hname, ?_, ?_, ?_⟩ <;> rw [if_neg hqualified]
    exacts [hcontext, hvalue, hcontainer]

/-- A variable is listed in a statement: once the statement is stripped, it is one of the items of
its list of declarations. -/
def Node.ListsVariable (kinds : KindTable) (node declaration : Json) : Prop :=
  ∃ fields list listed, Node.strip kinds node = .ok (.obj fields) ∧
    Node.getPresent (lookup "declarationList" fields) "declarations" = .ok list ∧
    Node.items list = .ok listed ∧ declaration ∈ listed

namespace Walker

variable {w : Walker} {E : Event → Prop}

/-- Any fault will do. -/
abbrev AnyFault : Fault → Prop := fun _ => True

theorem strippedFields_ensures (w : Walker) (node : Json) :
    (w.strippedFields node).Ensures E
      (fun fields => Node.strip w.kinds node = .ok (.obj fields)) AnyFault := by
  unfold strippedFields
  refine Walk.Ensures.bind (R := fun v => Node.strip w.kinds node = .ok v)
    (Walk.ensures_ofExcept (fun _ h => h) fun _ _ => trivial) fun v hv => ?_
  split
  · exact Walk.ensures_pure hv
  · exact Walk.ensures_fail trivial

theorem resolveName_ensures (hlog : ∀ entry, E (.logged entry)) (fields : Fields) :
    (resolveName fields).Ensures E (fun name => Node.declaredName? fields = some name)
      AnyFault := by
  unfold resolveName
  split
  next name h => exact Walk.ensures_pure h
  next => exact (Walk.ensures_log hlog).bind fun _ _ => Walk.ensures_fail trivial

/-! ## Declarations -/

/-- The record that is shaped from a stripped node is a record of the node, and the modifiers of
the node that it keeps can be read. -/
theorem shapeDeclaration_ensures {node context : Json} {fields : Fields} {heading : Heading}
    (hstrip : Node.strip w.kinds node = .ok (.obj fields)) (hlog : ∀ entry, E (.logged entry))
    (hexported : ∀ record context, E (.exported record context)) :
    (shapeDeclaration fields context heading.kind).Ensures E
      (fun record => context = .str record.context ∧ record.IsRecordOf w.kinds heading node ∧
        ∃ found, Node.modifiers (.obj record.node) = .ok found) AnyFault := by
  unfold shapeDeclaration
  refine (resolveName_ensures hlog fields).bind fun name _ => ?_
  refine Walk.Ensures.bind
    (R := fun found => Node.modifiers (.obj (setField "name" (.obj [("text", name)]) fields))
      = .ok found)
    (Walk.ensures_ofExcept (fun _ h => h) fun _ _ => trivial) fun found hfound => ?_
  refine (Walk.ensures_ofChecked (fun _ h => h) fun _ => trivial).bind fun record hmake => ?_
  obtain ⟨hcontext, rfl, hkind, hexp, hnode⟩ := Declaration.make_eq_valid.mp hmake
  have hrecord : record.IsRecordOf w.kinds heading node := by
    refine ⟨hkind, record.name.property.1, ?_, ⟨fields, hstrip, hnode⟩, ?_, ?_⟩
    · rw [hnode, Json.lookup_setField_self]
    · rw [hnode]
      have hclean := Node.strip_clean w.kinds node hstrip
      obtain ⟨⟨hbook, hkinds⟩, -⟩ := Json.eachObject_obj.mp hclean
      refine Json.eachObject_setField ⟨fun f hf => ?_, ?_⟩ ?_ hclean
      · rcases Json.mem_setField hf with rfl | hf
        · exact Node.isBookkeeping_name
        · exact hbook f hf
      · rw [Json.lookup_setField_of_ne (by decide)]
        exact hkinds
      · refine Json.eachObject_obj.mpr ⟨⟨fun f hf => ?_, .inl rfl⟩, fun f hf => ?_⟩ <;>
          obtain rfl := List.mem_singleton.mp hf
        · exact Node.isBookkeeping_text
        · exact Json.eachObject_str _
    · rw [hexp, hnode]
      exact Node.contains_modifiers .exported hfound
  have hpure : (pure record : Walk Declaration).Ensures E
      (fun record => context = .str record.context ∧ record.IsRecordOf w.kinds heading node ∧
        ∃ found, Node.modifiers (.obj record.node) = .ok found) AnyFault :=
    Walk.ensures_pure ⟨hcontext, hrecord, found, by rw [hnode]; exact hfound⟩
  dsimp only
  split
  · exact (Walk.ensures_emit (hexported _ _)).bind fun _ _ => hpure
  · exact hpure

/-- **Declarations are recorded as they stand.** What the collector of a heading pushes is a record
of the node that it was given, under the context that it was given. -/
theorem collectDeclaration_ensures {heading : Heading} {node context : Json}
    (hlog : ∀ entry, E (.logged entry)) (hexported : ∀ record context, E (.exported record context))
    (hpush : ∀ record : Declaration, context = .str record.context →
      record.IsRecordOf w.kinds heading node →
      (∃ found, Node.modifiers (.obj record.node) = .ok found) →
      E (.pushed (.declaration heading record context))) :
    (w.collectDeclaration heading node context).Ensures E (fun _ => True) AnyFault := by
  unfold collectDeclaration
  refine (strippedFields_ensures w node).bind fun fields hstrip => ?_
  refine (shapeDeclaration_ensures hstrip hlog hexported).bind fun record hrecord => ?_
  exact Walk.ensures_push (fun _ => hpush record hrecord.1 hrecord.2.1 hrecord.2.2) trivial

/-! ## Variables -/

/-- What is found under a key is the field of that name. -/
theorem get_eq_field {v field : Json} {key : String} (h : Node.get v key = .ok field) :
    field = v.field key := by
  cases v with
  | obj fields => exact (Except.ok.inj h).symm
  | _ => cases h

/-- What is found under a key, and is there, is the field of that name. -/
theorem getPresent_eq_field {v field : Json} {key : String} (h : Node.getPresent v key = .ok field)
    (hthere : field.truthy = true) : field = v.field key := by
  unfold Node.getPresent at h
  split at h
  · exact get_eq_field h
  · rw [← Except.ok.inj h] at hthere
    cases hthere

/-- A value that is missing or an object has the field that it shows. -/
theorem getPresent_eq {v : Json} (h : v = .null ∨ ∃ fields, v = .obj fields) (key : String) :
    Node.getPresent v key = .ok (v.field key) := by
  rcases h with rfl | ⟨fields, rfl⟩
  · rfl
  · cases fields with
    | nil => rfl
    | cons f rest => rfl

theorem get_eq {v : Json} (h : ∃ fields, v = .obj fields) (key : String) :
    Node.get v key = .ok (v.field key) := by
  obtain ⟨fields, rfl⟩ := h
  rfl

section Shape

variable {context declaration name : Json}

/-- A variable without a name for its type is passed over. -/
theorem shapeVariable_untyped (hobj : ∃ fields, declaration = .obj fields)
    (htype : (declaration.field "type").MaybeObject)
    (hmissing : (Node.typeName declaration).truthy = false) :
    w.shapeVariable context declaration = (do
      Walk.log .debug "Skipping variable without a type reference" [("context", context),
        ("name", (Node.identifierText (declaration.field "name")).getD .null)]
      pure none) := by
  unfold shapeVariable
  rw [get_eq hobj, Walk.ofExcept_ok, pure_bind, getPresent_eq htype, Walk.ofExcept_ok, pure_bind]
  exact if_pos (by simpa [Node.typeName] using hmissing)

/-- What holds the name of a type is an object, up to the variable. -/
theorem typeName_found (hthere : (Node.typeName declaration).truthy = true) :
    Node.get declaration "type" = .ok (declaration.field "type") ∧
      Node.getPresent (declaration.field "type") "typeName" = .ok (Node.typeName declaration) :=
  ⟨get_eq (Json.exists_fields_of_field (Json.truthy_of_field hthere)) _,
    getPresent_eq (.inr (Json.exists_fields_of_field hthere)) _⟩

/-- A variable whose type has a name, but that has none itself, is passed over as well. -/
theorem shapeVariable_unnamed (hthere : (Node.typeName declaration).truthy = true)
    (hname : (declaration.field "name").MaybeObject)
    (hnone : Node.identifierText (declaration.field "name") = none) :
    w.shapeVariable context declaration = (do
      Walk.log .debug "Skipping destructured variable"
        [("context", context), ("pattern", (declaration.field "name").field "kind")]
      pure none) := by
  obtain ⟨htype, htypeName⟩ := typeName_found hthere
  unfold shapeVariable
  rw [htype, Walk.ofExcept_ok, pure_bind, htypeName, Walk.ofExcept_ok, pure_bind,
    if_neg (by simp [hthere]), hnone]
  dsimp only
  rw [getPresent_eq hname, Walk.ofExcept_ok, pure_bind]

/-- Any other variable is checked. -/
theorem shapeVariable_named (hthere : (Node.typeName declaration).truthy = true)
    (hobj : ∃ fields, Node.typeName declaration = .obj fields)
    (hname : Node.identifierText (declaration.field "name") = some name) :
    w.shapeVariable context declaration = some <$> Walk.ofChecked VariableRecord.subject
      (VariableRecord.check w.rootContext name (Node.typeName declaration)) := by
  obtain ⟨htype, htypeName⟩ := typeName_found hthere
  unfold shapeVariable
  rw [htype, Walk.ofExcept_ok, pure_bind, htypeName, Walk.ofExcept_ok, pure_bind,
    if_neg (by simp [hthere]), hname]
  dsimp only
  rw [get_eq hobj, Walk.ofExcept_ok, pure_bind]
  rfl

end Shape

/-- The record that is shaped from a variable is a record of it. -/
theorem shapeVariable_ensures (hlog : ∀ entry, E (.logged entry)) (context declaration : Json) :
    (w.shapeVariable context declaration).Ensures E
      (fun shaped => ∀ record ∈ shaped, record.IsRecordOf w.rootContext declaration) AnyFault := by
  have hget : ∀ result : Except Fault Json,
      (Walk.ofExcept result).Ensures E (fun v => result = .ok v) AnyFault :=
    fun _ => Walk.ensures_ofExcept (fun _ h => h) fun _ _ => trivial
  unfold shapeVariable
  refine (hget _).bind fun type htype => (hget _).bind fun typeName htypeName => ?_
  dsimp only
  split
  · exact (Walk.ensures_log hlog).bind fun _ _ => Walk.ensures_pure fun _ h => by cases h
  next hthere =>
    have hname : typeName = Node.typeName declaration := by
      rw [getPresent_eq_field htypeName (by simpa using hthere), get_eq_field htype]
      rfl
    split
    · refine (hget _).bind fun _ _ => (Walk.ensures_log hlog).bind fun _ _ => ?_
      exact Walk.ensures_pure fun _ h => by cases h
    next name htext =>
      refine (hget _).bind fun left hleft => ?_
      rw [map_eq_pure_bind]
      refine (Walk.ensures_ofChecked (fun _ h => h) fun _ => trivial).bind fun record hmake => ?_
      refine Walk.ensures_pure fun other hother => ?_
      obtain rfl := Option.some.inj hother
      rw [get_eq_field hleft, hname] at hmake
      exact VariableRecord.isRecordOf_of_check htext hmake

theorem shapeVariables_ensures (hlog : ∀ entry, E (.logged entry)) (context : Json)
    (declarations : List Json) :
    (w.shapeVariables context declarations).Ensures E
      (fun records => ∀ record ∈ records, ∃ declaration ∈ declarations,
        record.IsRecordOf w.rootContext declaration) AnyFault := by
  induction declarations with
  | nil => exact Walk.ensures_pure fun _ h => by cases h
  | cons v rest ih =>
    rw [shapeVariables]
    refine (shapeVariable_ensures hlog context v).bind fun shaped hshaped =>
      ih.bind fun records hrecords => Walk.ensures_pure fun record hrecord => ?_
    rcases List.mem_append.mp hrecord with hfirst | hlater
    · exact ⟨v, List.mem_cons_self .., hshaped record (Option.mem_toList.mp hfirst)⟩
    · obtain ⟨declaration, hmem, hrecordOf⟩ := hrecords record hlater
      exact ⟨declaration, List.mem_cons_of_mem _ hmem, hrecordOf⟩

/-- **Variables are recorded as they are declared.** What the collector of variables pushes are
records of variables that the statement lists, under the context that it was given. -/
theorem collectVariables_records {node context : Json} (hlog : ∀ entry, E (.logged entry))
    (hpush : ∀ record, context.isKey = true →
      (∃ declaration, Node.ListsVariable w.kinds node declaration ∧
        record.IsRecordOf w.rootContext declaration) →
      E (.pushed (.variableRecord record context))) :
    (w.collectVariables node context).Ensures E (fun _ => True) AnyFault := by
  unfold collectVariables
  refine (strippedFields_ensures w node).bind fun fields hstrip => ?_
  refine Walk.Ensures.bind (R := fun listed => ∃ list,
      Node.getPresent (lookup "declarationList" fields) "declarations" = .ok list ∧
        Node.items list = .ok listed)
    (Walk.ensures_ofExcept (fun listed h => ?_) fun _ _ => trivial) fun listed hlisted => ?_
  · cases hlist : Node.getPresent (lookup "declarationList" fields) "declarations" with
    | error fault =>
      rw [hlist] at h
      cases h
    | ok list =>
      rw [hlist] at h
      exact ⟨list, rfl, h⟩
  obtain ⟨list, hlist, hitems⟩ := hlisted
  refine (shapeVariables_ensures hlog context listed).bind fun records hrecords => ?_
  refine Walk.ensures_forEach fun record hrecord => Walk.ensures_push (fun hkey => ?_) trivial
  obtain ⟨declaration, hmem, hrecordOf⟩ := hrecords record hrecord
  exact hpush record hkey
    ⟨declaration, ⟨fields, list, listed, hstrip, hlist, hitems, hmem⟩, hrecordOf⟩

theorem collectVariables_ensures {context : Json} (hlog : ∀ entry, E (.logged entry))
    (hpush : ∀ record, context.isKey = true → E (.pushed (.variableRecord record context)))
    (node : Json) :
    (w.collectVariables node context).Ensures E (fun _ => True) AnyFault :=
  collectVariables_records hlog fun record hkey _ => hpush record hkey

/-! ## Exports and imports -/

theorem collectExport_ensures {context : Json} (hlog : ∀ entry, E (.logged entry))
    (hpush : ∀ record, context.isKey = true → E (.pushed (.exportRecord record context)))
    (node : Json) :
    (w.collectExport node context).Ensures E (fun _ => True) AnyFault := by
  unfold collectExport
  refine (strippedFields_ensures w node).bind fun fields _ => ?_
  split
  · exact (Walk.ensures_log hlog).bind fun _ _ => Walk.ensures_fail trivial
  · refine Walk.Ensures.bind (R := fun _ => True)
      (Walk.ensures_ofChecked (fun _ _ => trivial) fun _ => trivial) fun record _ => ?_
    exact Walk.ensures_push (hpush record) trivial

theorem pushImport_ensures (hpush : ∀ record, E (.pushed (.importRecord record)))
    (kind : ImportKind) (what source : Json) :
    (pushImport kind what source).Ensures E (fun _ => True) AnyFault := by
  unfold pushImport
  refine Walk.Ensures.bind (R := fun _ => True)
    (Walk.ensures_ofChecked (fun _ _ => trivial) fun _ => trivial) fun record _ => ?_
  exact Walk.ensures_push (fun _ => hpush record) trivial

theorem collectBindings_ensures (hlog : ∀ entry, E (.logged entry))
    (hpush : ∀ record, E (.pushed (.importRecord record))) (source bindings : Json) :
    (collectBindings source bindings).Ensures E (fun _ => True) AnyFault := by
  unfold collectBindings
  refine Walk.Ensures.bind (R := fun _ => True)
    (Walk.ensures_ofExcept (fun _ _ => trivial) fun _ _ => trivial) fun nameNode _ => ?_
  split
  · exact pushImport_ensures hpush _ _ _
  · refine Walk.Ensures.bind (R := fun _ => True)
      (Walk.ensures_ofExcept (fun _ _ => trivial) fun _ _ => trivial) fun elements _ => ?_
    refine Walk.ensures_forEach fun element _ => ?_
    refine Walk.Ensures.bind (R := fun _ => True) ?_ fun name _ => pushImport_ensures hpush _ _ _
    unfold resolveNameOf
    split
    · exact (resolveName_ensures hlog _).mono (fun _ h => h) (fun _ _ => trivial) fun _ h => h
    · exact Walk.ensures_fail trivial

theorem collectImport_ensures (hlog : ∀ entry, E (.logged entry))
    (hpush : ∀ record, E (.pushed (.importRecord record))) (node : Json) :
    (w.collectImport node).Ensures E (fun _ => True) AnyFault := by
  unfold collectImport
  refine (strippedFields_ensures w node).bind fun fields _ => ?_
  refine (resolveName_ensures hlog fields).bind fun source _ => ?_
  dsimp only
  split
  · exact Walk.ensures_token.bind fun token _ => pushImport_ensures hpush _ _ _
  · refine Walk.Ensures.bind (R := fun _ => True)
      (Walk.ensures_ofExcept (fun _ _ => trivial) fun _ _ => trivial) fun nameNode _ => ?_
    have hbindings : (if (Json.field (lookup "importClause" fields) "namedBindings").truthy then
        collectBindings source (Json.field (lookup "importClause" fields) "namedBindings")
        else pure () : Walk Unit).Ensures E (fun _ => True) AnyFault := by
      split
      · exact collectBindings_ensures hlog hpush _ _
      · exact Walk.ensures_pure trivial
    split
    · exact (pushImport_ensures hpush _ _ _).bind fun _ _ => hbindings
    · exact hbindings

/-! ## Any collector -/

/-- What has to be shown of an event of a collector: of a log entry, of the report of an exported
declaration, of a declaration that is pushed, with what is known of it, and of any other push. -/
theorem collector_ensures (collector : Collector) (node context : Json)
    (hlog : ∀ entry, E (.logged entry)) (hexported : ∀ record key, E (.exported record key))
    (hdeclaration : ∀ heading (record : Declaration), collector = .declaration heading →
      context = .str record.context → record.IsRecordOf w.kinds heading node →
      (∃ found, Node.modifiers (.obj record.node) = .ok found) →
      E (.pushed (.declaration heading record context)))
    (hother : ∀ p : Push, p.isUsable = true →
      (∀ heading record key, p ≠ .declaration heading record key) → E (.pushed p)) :
    (w.collect collector node context).Ensures E (fun _ => True) AnyFault := by
  cases collector with
  | declaration heading =>
    exact collectDeclaration_ensures hlog hexported fun record => hdeclaration heading record rfl
  | variableStatement =>
    exact collectVariables_ensures hlog
      (fun _ hkey => hother _ hkey fun _ _ _ h => by cases h) node
  | exportAssignment =>
    exact collectExport_ensures hlog
      (fun _ hkey => hother _ hkey fun _ _ _ h => by cases h) node
  | importDeclaration =>
    exact collectImport_ensures hlog (fun _ => hother _ rfl fun _ _ _ h => by cases h) node

end Walker

end DeclCatalogue
