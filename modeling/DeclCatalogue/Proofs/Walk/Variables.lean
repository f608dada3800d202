import DeclCatalogue.Proofs.Walk.TypeContexts

/-!
# Which variables of a statement are recorded

A statement may list variables of every kind: with a type or without one, with a name or a pattern
of names. `Node.isRecordable` picks out those that a record is made of, and every other one leaves a
log entry (`Walker.skipEntry`) and nothing else. Neither of the two texts that go into a record has
passed its check by then: the type may not be called anything, and either text may hold a surrogate
without its pair (`Node.isNamed`).

One variable is one of three cases: it is skipped (`shapeVariable_skipped`), refused
(`shapeVariable_misnamed`) or recorded (`shapeVariable_recorded`). A list is refused if one of its
variables is, and otherwise goes through to the pushes, which are made of the recordable variables
in order. `collectVariables_filters` says this of every statement.
-/

namespace DeclCatalogue

open Json (lookup)
open Node (ownText? fullText? HasStringTexts strip)

namespace Node

/-- **The form of a variable.** Its texts are texts, and its name, its type and the name of its type
are missing or objects. -/
structure IsVariable (declaration : Fields) : Prop where
  texts : (Json.obj declaration).EachObject HasStringTexts
  name : (lookup "name" declaration).MaybeObject
  type : (lookup "type" declaration).MaybeObject
  typeName : ((lookup "type" declaration).field "typeName").MaybeObject

instance : DecidablePred IsVariable := fun _ =>
  decidable_of_iff (_ ∧ _ ∧ _ ∧ _) ⟨fun ⟨htexts, hname, htype, htypeName⟩ =>
    ⟨htexts, hname, htype, htypeName⟩, fun h => ⟨h.texts, h.name, h.type, h.typeName⟩⟩

/-- **The form of a statement that declares variables.** Its list is missing or an object, in which
the variables are missing or a list of these. -/
structure IsVariableStatement (fields : Fields) (declarations : List Fields) : Prop where
  list : (lookup "declarationList" fields).MaybeObject
  listed : ((lookup "declarationList" fields).field "declarations").MaybeObjects declarations
  each : ∀ d ∈ declarations, IsVariable d

/-- Whether a record is made of a variable: its type has a name, where an empty object counts as
absent as it does everywhere, and it has a name of its own. -/
def isRecordable (declaration : Json) : Bool :=
  (typeName declaration).truthy && (ownText? (declaration.field "name")).isSome

/-- What the type of a variable is called: the right side of its name, if that has two sides, and
else the whole of it. -/
def typeText? (declaration : Json) : Option String :=
  if isQualified (typeName declaration) then ownText? ((typeName declaration).field "right")
  else fullText? (typeName declaration)

/-- Whether a variable and its type are called anything, by texts that stand for characters. -/
def isNamed (declaration : Json) : Bool :=
  (ownText? (declaration.field "name")).any Text.isWellFormed &&
    (typeText? declaration).any Text.isWellFormed

/-- What a node is called has a character in it. -/
theorem ne_of_bind_asText? {value : Option Json} {text : String}
    (h : value.bind asText? = some text) : text ≠ "" := by
  obtain ⟨v, -, htext⟩ := Option.bind_eq_some_iff.mp h
  exact (asText?_eq_some.mp htext).1

/-- So does what a type is called. -/
theorem ne_of_typeText? {declaration : Json} {text : String}
    (h : typeText? declaration = some text) : text ≠ "" := by
  unfold typeText? at h
  split at h
  · exact ne_of_bind_asText? h
  · exact ne_of_bind_asText? h

/-- A variable has its form once it is stripped. -/
theorem IsVariable.strip {table : KindTable} {declaration out : Fields} (h : IsVariable declaration)
    (hstrip : strip table (.obj declaration) = .ok (.obj out)) : IsVariable out := by
  have hname : Node.strip table (lookup "name" declaration) = .ok (lookup "name" out) :=
    strip_fields hstrip (by decide) (by decide)
  have htype : Node.strip table (lookup "type" declaration) = .ok (lookup "type" out) :=
    strip_fields hstrip (by decide) (by decide)
  exact ⟨strip_hasStringTexts hstrip h.texts, strip_maybeObject h.name hname,
    strip_maybeObject h.type htype,
    strip_maybeObject h.typeName (strip_field htype (by decide) (by decide))⟩

end Node

namespace Walker

open Node (isRecordable isNamed typeText? typeName isQualified IsVariable)

/-- What is logged of a variable that no record is made of. -/
def skipEntry (context declaration : Json) : LogEntry :=
  if (typeName declaration).truthy then
    ⟨.debug, "Skipping destructured variable",
      [("context", context), ("pattern", (declaration.field "name").field "kind")]⟩
  else
    ⟨.debug, "Skipping variable without a type reference",
      [("context", context), ("name", (Node.identifierText (declaration.field "name")).getD .null)]⟩

/-! ## One variable -/

section Variable

variable {w : Walker} {declaration : Fields} (h : IsVariable declaration) (context : Json)

include h

/-- The name of a variable, if it has one, is a text. -/
theorem identifierText_own : Node.identifierText ((Json.obj declaration).field "name") =
    (ownText? ((Json.obj declaration).field "name")).map .str :=
  (Node.isTextOrNone_identifierText (h.texts.lookup "name")).eq_map

/-- A variable that no record is made of is logged. -/
theorem shapeVariable_skipped (hskip : isRecordable (.obj declaration) = false) :
    w.shapeVariable context (.obj declaration) = (do
      Walk.emit (.logged (skipEntry context (.obj declaration)))
      pure none) := by
  unfold skipEntry
  by_cases hthere : (typeName (.obj declaration)).truthy = true
  · -- the type has a name, so it is the variable that has none
    have hnone : ownText? ((Json.obj declaration).field "name") = none := by
      unfold isRecordable at hskip
      rw [hthere, Bool.true_and] at hskip
      exact Option.not_isSome_iff_eq_none.mp (by rw [hskip]; exact Bool.false_ne_true)
    have hunnamed : Node.identifierText ((Json.obj declaration).field "name") = none := by
      rw [identifierText_own h, hnone, Option.map_none]
    rw [if_pos hthere, shapeVariable_unnamed hthere h.name hunnamed]
    rfl
  · rw [if_neg hthere,
      shapeVariable_untyped ⟨declaration, rfl⟩ h.type (Bool.not_eq_true _ ▸ hthere)]
    rfl

/-- What is checked of a variable are texts: its name, what its type is called, and what stands in
front of that. -/
theorem check_texts (root : String) (name : Json) : ∃ container : Option String,
    VariableRecord.check root name (typeName (.obj declaration)) = VariableRecord.make
      (if isQualified (typeName (.obj declaration)) = true then none else some root) name
      ((typeText? (.obj declaration)).map .str) (container.map .str) := by
  have htexts : (typeName (.obj declaration)).EachObject HasStringTexts :=
    Node.eachObject_field (h.texts.lookup "type") "typeName"
  unfold VariableRecord.check typeText?
  by_cases hqualified : isQualified (typeName (.obj declaration)) = true
  · have hright := Node.isTextOrNone_identifierText (Node.eachObject_field htexts "right")
    have hleft := Node.isTextOrNone_entityName (Node.eachObject_field htexts "left")
    refine ⟨fullText? ((typeName (.obj declaration)).field "left"), ?_⟩
    rw [if_pos hqualified, if_pos hqualified, if_pos hqualified]
    exact congrArg₂ (VariableRecord.make none name) hright.eq_map hleft.eq_map
  · have hwhole := Node.isTextOrNone_entityName htexts
    refine ⟨none, ?_⟩
    rw [if_neg hqualified, if_neg hqualified, if_neg hqualified]
    exact congrArg (VariableRecord.make (some root) name · none) hwhole.eq_map

/-- A variable that a record can be made of is checked. -/
theorem shapeVariable_checked (hrecordable : isRecordable (.obj declaration) = true) :
    ∃ name, ownText? ((Json.obj declaration).field "name") = some name ∧
      w.shapeVariable context (.obj declaration) =
        some <$> Walk.ofChecked VariableRecord.subject
          (VariableRecord.check w.rootContext (.str name) (typeName (.obj declaration))) := by
  obtain ⟨hthere, hsome⟩ := Bool.and_eq_true_iff.mp hrecordable
  obtain ⟨name, hname⟩ := Option.isSome_iff_exists.mp hsome
  have hobj : ∃ fields, typeName (.obj declaration) = .obj fields := by
    refine h.typeName.resolve_left fun hnull => ?_
    rw [show typeName (.obj declaration) = .null from hnull] at hthere
    cases hthere
  exact ⟨name, hname,
    shapeVariable_named hthere hobj (Node.identifierText_of_ownText? hname)⟩

/-- A variable whose type is not called anything, or for which one of the two texts does not stand
for characters, is refused. -/
theorem shapeVariable_misnamed (hrecordable : isRecordable (.obj declaration) = true)
    (hnamed : isNamed (.obj declaration) = false) :
    ∃ report, w.shapeVariable context (.obj declaration) = Walk.fail (.invalid report) := by
  obtain ⟨name, hname, hshape⟩ := shapeVariable_checked (w := w) h context hrecordable
  obtain ⟨container, hcheck⟩ := check_texts h w.rootContext (.str name)
  rw [hshape]
  cases hresult : VariableRecord.check w.rootContext (.str name) (typeName (.obj declaration)) with
  | invalid issues => exact ⟨⟨VariableRecord.subject, issues⟩, rfl⟩
  | valid record =>
    -- a record holds two names, and these are the two texts
    rw [hcheck] at hresult
    obtain ⟨-, hrecord, hvalue, -⟩ := VariableRecord.make_eq_valid.mp hresult
    obtain ⟨value, htype, hvalue⟩ := Option.map_eq_some_iff.mp hvalue
    unfold isNamed at hnamed
    rw [hname, htype, Json.str.inj hrecord, Json.str.inj hvalue, Option.any_some, Option.any_some,
      record.name.property.2, record.value.property.2] at hnamed
    cases hnamed

/-- Any other variable has its record. -/
theorem shapeVariable_recorded (hrecordable : isRecordable (.obj declaration) = true)
    (hnamed : isNamed (.obj declaration) = true) :
    ∃ record : VariableRecord, record.IsRecordOf w.rootContext (.obj declaration) ∧
      w.shapeVariable context (.obj declaration) = pure (some record) := by
  obtain ⟨name, hname, hshape⟩ := shapeVariable_checked (w := w) h context hrecordable
  obtain ⟨container, hcheck⟩ := check_texts h w.rootContext (.str name)
  obtain ⟨hown, htype⟩ := Bool.and_eq_true_iff.mp hnamed
  rw [hname, Option.any_some] at hown
  obtain ⟨value, hvalue, hformed⟩ := (Option.any_eq_true ..).mp htype
  let record : VariableRecord :=
    ⟨if isQualified (typeName (.obj declaration)) = true then none else some w.rootContext,
      ⟨name, Node.ne_of_bind_asText? hname, hown⟩, ⟨value, Node.ne_of_typeText? hvalue, hformed⟩,
      container⟩
  have hcontainer : (container.map Json.str).getD .null = Json.ofText? record.valueContext := by
    cases container <;> rfl
  have hvalid : VariableRecord.check w.rootContext (.str name) (typeName (.obj declaration)) =
      .valid record := by
    rw [hcheck]
    exact VariableRecord.make_eq_valid.mpr
      ⟨rfl, rfl, congrArg (Option.map Json.str) hvalue, hcontainer⟩
  refine ⟨record,
    VariableRecord.isRecordOf_of_check (Node.identifierText_of_ownText? hname) hvalid, ?_⟩
  rw [hshape, hvalid, Walk.ofChecked_valid, map_pure]

end Variable

/-! ## Lists of variables -/

/-- An event in front of a step. -/
theorem emit_bind_apply {α : Type} (e : Event) (next : Walk α) (drawn : Nat) :
    (Walk.emit e >>= fun _ => next) drawn =
      ⟨e :: (next drawn).events, (next drawn).drawn, (next drawn).result⟩ :=
  Walk.bind_apply_ok rfl

section Variables

variable {w : Walker} {declarations : List Fields} (h : ∀ d ∈ declarations, IsVariable d)
  (context : Json)

include h

/-- A list with a variable that is refused is refused. -/
theorem shapeVariables_misnamed
    (hnamed : ∃ d ∈ (declarations.map Json.obj).filter isRecordable, isNamed d = false)
    (drawn : Nat) : ∃ report,
      (w.shapeVariables context (declarations.map .obj) drawn).result =
        .error (.invalid report) := by
  induction declarations with
  | nil =>
    obtain ⟨d, hd, -⟩ := hnamed
    cases hd
  | cons d rest ih =>
    have hd := h d (List.mem_cons_self ..)
    have hrest := ih fun e he => h e (List.mem_cons_of_mem _ he)
    rw [List.map_cons] at hnamed ⊢
    rw [shapeVariables]
    by_cases hrecordable : isRecordable (.obj d) = true
    · rw [List.filter_cons_of_pos hrecordable] at hnamed
      cases hown : isNamed (.obj d) with
      | false =>
        obtain ⟨report, hfail⟩ := shapeVariable_misnamed (w := w) hd context hrecordable hown
        rw [hfail]
        exact ⟨report, rfl⟩
      | true =>
        obtain ⟨record, -, hpure⟩ := shapeVariable_recorded (w := w) hd context hrecordable hown
        obtain ⟨e, hmem, he⟩ := hnamed
        rcases List.mem_cons.mp hmem with rfl | hlater
        · rw [hown] at he
          cases he
        · obtain ⟨report, hreport⟩ := hrest ⟨e, hlater, he⟩
          refine ⟨report, ?_⟩
          rw [hpure, pure_bind, Walk.bind_apply_error hreport]
    · rw [List.filter_cons_of_neg hrecordable] at hnamed
      obtain ⟨report, hreport⟩ := hrest hnamed
      refine ⟨report, ?_⟩
      rw [shapeVariable_skipped hd context (by simpa using hrecordable), bind_assoc,
        emit_bind_apply, pure_bind, Walk.bind_apply_error hreport]

/-- In any other list each variable is recorded or leaves a log entry, in order. -/
theorem shapeVariables_recorded
    (hnamed : ∀ d ∈ (declarations.map Json.obj).filter isRecordable, isNamed d = true)
    (drawn : Nat) : ∃ records,
      List.Forall₂ (fun d (record : VariableRecord) => record.IsRecordOf w.rootContext d)
        ((declarations.map Json.obj).filter isRecordable) records ∧
      w.shapeVariables context (declarations.map .obj) drawn =
        ⟨((declarations.map Json.obj).filter fun d => !isRecordable d).map fun d =>
          .logged (skipEntry context d), drawn, .ok records⟩ := by
  induction declarations with
  | nil => exact ⟨[], .nil, rfl⟩
  | cons d rest ih =>
    have hd := h d (List.mem_cons_self ..)
    have hlater := ih fun e he => h e (List.mem_cons_of_mem _ he)
    rw [List.map_cons] at hnamed ⊢
    rw [shapeVariables]
    by_cases hrecordable : isRecordable (.obj d) = true
    · rw [List.filter_cons_of_pos hrecordable] at hnamed ⊢
      obtain ⟨records, hrecords, hrest⟩ := hlater fun e he => hnamed e (List.mem_cons_of_mem _ he)
      obtain ⟨record, hrecord, hpure⟩ := shapeVariable_recorded (w := w) hd context hrecordable
        (hnamed _ (List.mem_cons_self ..))
      refine ⟨record :: records, .cons hrecord hrecords, ?_⟩
      rw [hpure, pure_bind, Walk.bind_apply_ok (congrArg Outcome.result hrest), hrest,
        List.filter_cons_of_neg (by simp [hrecordable]), Walk.pure_apply, List.append_nil]
      rfl
    · rw [List.filter_cons_of_neg hrecordable] at hnamed ⊢
      obtain ⟨records, hrecords, hrest⟩ := hlater hnamed
      refine ⟨records, hrecords, ?_⟩
      rw [shapeVariable_skipped hd context (by simpa using hrecordable), bind_assoc,
        emit_bind_apply, pure_bind, Walk.bind_apply_ok (congrArg Outcome.result hrest), hrest,
        List.filter_cons_of_pos (by simp [hrecordable]), List.map_cons, Walk.pure_apply,
        List.append_nil]
      rfl

end Variables

/-! ## Statements -/

/-- Pushes under a context that can be a key, one after the other. -/
theorem forEach_push_apply {α : Type} {p : α → Push} (h : ∀ a, (p a).isUsable = true) (xs : List α)
    (drawn : Nat) : Walk.forEach (fun a => Walk.push (p a)) xs drawn =
      ⟨xs.map fun a => .pushed (p a), drawn, .ok ()⟩ := by
  induction xs with
  | nil => rfl
  | cons x rest ih =>
    have hpush : Walk.push (p x) = Walk.emit (.pushed (p x)) := if_pos (h x)
    rw [Walk.forEach, hpush, emit_bind_apply, ih]
    rfl

/-- **Which variables of a statement are recorded.** Let a statement that declares variables be
stripped without a fault. It is refused exactly if there is a variable that a record could be made
of, but for the name of its type, which is empty, or for one of the two names, which does not stand
for characters; then nothing is pushed. Otherwise there is one record for each variable that has a
name of its own and a name for its type, in their order and all under the given context, and one log
entry for each of the others; nothing else is done. -/
theorem collectVariables_filters (w : Walker) {fields out : Fields} {declarations : List Fields}
    (h : Node.IsVariableStatement fields declarations)
    (hstrip : strip w.kinds (.obj fields) = .ok (.obj out)) (context : String) (drawn : Nat) :
    let listed := View.itemsOf ((lookup "declarationList" out).field "declarations")
    let recordable := listed.filter isRecordable
    let skipped := listed.filter fun d => !isRecordable d
    let outcome := w.collectVariables (.obj fields) (.str context) drawn
    List.Forall₂ (fun d s => strip w.kinds (.obj d) = .ok s) declarations listed ∧
      ((∃ report, outcome.result = .error (.invalid report)) ↔
        ∃ d ∈ recordable, isNamed d = false) ∧
      ((∃ d ∈ recordable, isNamed d = false) → Event.pushes outcome.events = []) ∧
      ((∀ d ∈ recordable, isNamed d = true) → outcome.result = .ok () ∧
        ∃ records, List.Forall₂ (fun d (record : VariableRecord) =>
            record.IsRecordOf w.rootContext d) recordable records ∧
          outcome.events = (skipped.map fun d => .logged (skipEntry (.str context) d)) ++
            records.map fun record => .pushed (.variableRecord record (.str context))) := by
  intro listed recordable skipped outcome
  have hlist : strip w.kinds (lookup "declarationList" fields) =
      .ok (lookup "declarationList" out) := Node.strip_fields hstrip (by decide) (by decide)
  obtain ⟨stripped, hlisted, hforall⟩ := Node.strip_maybeObjects h.listed
    (Node.strip_field hlist (by decide) (by decide))
  obtain ⟨hall, hitems⟩ := hlisted.items
  have hvariables : ∀ d ∈ stripped, IsVariable d := by
    intro d hd
    obtain ⟨before, hbefore, hstripped⟩ := Node.forall₂_mem_right hforall hd
    exact (h.each before hbefore).strip hstripped
  have houtcome : outcome = _ := congrFun (collectVariables_listed hstrip
    (getPresent_eq (Node.strip_maybeObject h.list hlist) _) hitems (.str context)) drawn
  have hsame : listed = stripped.map .obj := hall
  have hrefused : (∃ d ∈ recordable, isNamed d = false) →
      ∃ report, outcome.result = .error (.invalid report) := by
    intro hnamed
    obtain ⟨report, hreport⟩ := shapeVariables_misnamed (w := w) hvariables (.str context)
      (by rwa [← hsame]) drawn
    exact ⟨report, by rw [houtcome, Walk.bind_apply_error hreport]⟩
  have hrecorded : (∀ d ∈ recordable, isNamed d = true) → outcome.result = .ok () ∧
      ∃ records, List.Forall₂ (fun d (record : VariableRecord) =>
          record.IsRecordOf w.rootContext d) recordable records ∧
        outcome.events = (skipped.map fun d => .logged (skipEntry (.str context) d)) ++
          records.map fun record => .pushed (.variableRecord record (.str context)) := by
    intro hnamed
    obtain ⟨records, hrecords, hshape⟩ := shapeVariables_recorded (w := w) hvariables (.str context)
      (by rwa [← hsame]) drawn
    have hpushes := forEach_push_apply (p := fun record => .variableRecord record (.str context))
      (fun _ => rfl) records drawn
    rw [← hsame] at hrecords hshape
    have hend : outcome = ⟨(skipped.map fun d => .logged (skipEntry (.str context) d)) ++
        records.map fun record => .pushed (.variableRecord record (.str context)), drawn,
        .ok ()⟩ := by
      rw [houtcome, ← hsame, Walk.bind_apply_ok (congrArg Outcome.result hshape), hshape, hpushes]
    exact ⟨congrArg Outcome.result hend, records, hrecords, congrArg Outcome.events hend⟩
  refine ⟨?_, ⟨fun ⟨report, hreport⟩ => ?_, hrefused⟩, fun hnamed => ?_, hrecorded⟩
  · rw [hsame, List.forall₂_map_right_iff]
    exact hforall
  · -- a statement without such a variable is not refused
    by_contra hnone
    have hok := (hrecorded fun d hd => by simpa using fun hnamed => hnone ⟨d, hd, hnamed⟩).1
    rw [hok] at hreport
    cases hreport
  · obtain ⟨report, hreport⟩ := hrefused hnamed
    have hkey : (Json.str context).isKey = true := rfl
    have hcalls := w.collectVariables_allOrNothing (.obj fields) hkey drawn _ hreport
    rw [← Event.pushes_call, hcalls]
    rfl

/-- A variable of a built-in type, one of a type with a qualified name, a pattern and one of a type
with a plain name: two of the four are recorded. With one more, whose type has an empty name or
whose own name is half a surrogate pair, none is. -/
theorem collectVariables_filters_mixed :
    let w : Walker := ⟨"root", "namespace$", "import$", 32, KindTable.standard, .counted⟩
    let named (text : String) : Json := .obj [("text", .str text)]
    let reference (typeName : Json) : Json := .obj [("kind", .int 183), ("typeName", typeName)]
    let mixed : List Fields := [[("name", named "a"), ("type", .obj [("kind", .int 154)])],
      [("name", named "b"), ("type", reference (.obj [("left", named "A"), ("right", named "B")]))],
      [("name", .obj [("kind", .int 206)]), ("type", reference (named "T"))],
      [("name", named "c"), ("type", reference (named "T"))]]
    let refused : List Fields := [
      [("name", named "d"), ("type", reference (.obj [("kind", .int 80)]))],
      [("name", named (String.singleton (Text.standIn 0xD800))), ("type", reference (named "T"))]]
    let statement (listed : List Fields) : Fields :=
      [("declarationList", .obj [("declarations", .arr (listed.map .obj))])]
    let collected (listed : List Fields) : Outcome Unit :=
      w.collectVariables (.obj (statement listed)) (.str "A") 0
    ((collected mixed).result = .ok () ∧ (Event.pushes (collected mixed).events).length = 2) ∧
      ∀ d ∈ refused, (∃ report, (collected (mixed ++ [d])).result = .error (.invalid report)) ∧
        Event.pushes (collected (mixed ++ [d])).events = [] := by
  intro w named reference mixed refused statement collected
  have hmixed : Node.IsVariableStatement (statement mixed) mixed :=
    ⟨.inr ⟨_, rfl⟩, .inr rfl, by decide⟩
  constructor
  · obtain ⟨-, -, -, hrecorded⟩ := w.collectVariables_filters hmixed rfl "A" 0
    obtain ⟨hok, records, hrecords, hevents⟩ := hrecorded (by decide +kernel)
    have hlength : 2 = records.length := hrecords.length_eq
    refine ⟨hok, ?_⟩
    show (Event.pushes (w.collectVariables _ _ _).events).length = 2
    rw [hevents]
    simpa [Event.pushes, List.filterMap_map, Function.comp_def] using hlength.symm
  · intro d hd
    have hrefused : ∀ e ∈ refused,
        Node.IsVariableStatement (statement (mixed ++ [e])) (mixed ++ [e]) :=
      fun e he => ⟨.inr ⟨_, rfl⟩, .inr rfl, by revert e; decide⟩
    rcases List.mem_pair.mp hd with rfl | rfl
    all_goals
      obtain ⟨-, hrefuses, hnothing, -⟩ := w.collectVariables_filters (hrefused _ hd) rfl "A" 0
      exact ⟨hrefuses.mpr (by decide +kernel), hnothing (by decide +kernel)⟩

/-- **What is there may still be empty, and what is not empty may still be no name.** A variable
whose type is called by an empty object is passed over, one for which an empty object is the left
side of that is refused although the right one is called something, and so is one whose name is half
a surrogate pair. -/
theorem collectVariables_partlyNamed :
    let w : Walker := ⟨"root", "namespace$", "import$", 32, KindTable.standard, .counted⟩
    let named (text : String) : Json := .obj [("text", .str text)]
    let declared (text : String) (typeName : Json) : Fields :=
      [("name", named text), ("type", .obj [("typeName", typeName)])]
    let statement (d : Fields) : Fields :=
      [("declarationList", .obj [("declarations", .arr [.obj d])])]
    let outcome (d : Fields) : Outcome Unit :=
      w.collectVariables (.obj (statement d)) (.str "A") 0
    let empty := declared "x" (.obj [])
    let oneSided := declared "x" (.obj [("left", .obj []), ("right", named "B")])
    let broken := declared (String.singleton (Text.standIn 0xD800)) (named "T")
    (∀ d ∈ [empty, oneSided, broken], Node.IsVariableStatement (statement d) [d] ∧
        ∃ out, strip w.kinds (.obj (statement d)) = .ok (.obj out)) ∧
      ((outcome empty).result = .ok () ∧ Event.pushes (outcome empty).events = []) ∧
      (∃ report, (outcome oneSided).result = .error (.invalid report)) ∧
      ∃ report, (outcome broken).result = .error (.invalid report) := by
  intro w named declared statement outcome empty oneSided broken
  refine ⟨?_, ⟨rfl, rfl⟩, ⟨_, rfl⟩, ⟨_, rfl⟩⟩
  have hvariable : ∀ d ∈ [empty, oneSided, broken], IsVariable d := by decide
  intro d hd
  refine ⟨⟨.inr ⟨_, rfl⟩, .inr rfl, fun e he => hvariable e (List.mem_singleton.mp he ▸ hd)⟩, ?_⟩
  simp only [List.mem_cons, List.not_mem_nil, or_false] at hd
  rcases hd with rfl | rfl | rfl <;> exact ⟨_, rfl⟩

end Walker

end DeclCatalogue
