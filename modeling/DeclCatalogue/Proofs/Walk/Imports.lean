import DeclCatalogue.Proofs.Walk.Collect
import DeclCatalogue.Proofs.Walk.Session
import DeclCatalogue.Proofs.Walk.Tokens
import DeclCatalogue.Proofs.Walk.View

/-!
# The names that an import records

An import is recorded name by name, in the order in which the names stand in it: the name of the
clause, then either the one name of the bindings or the name of each element. `Node.clauseNames`
lists them off the node before it is stripped. Names are texts here; a text that holds half a
surrogate pair is listed like any other, but no record can be made of it.

`ImportedName.Recorded` says what is pushed for a list of names: their records up to the first name
that has none, which ends the import. `Walk.Imports` carries it through the steps of
`Walker.collectImport`, from single names (`pushImport_records`, `importElement_records`) along rows
(`Imports.bind`), and `collectImport_records` puts the rows together for every form of an import.
-/

namespace DeclCatalogue

open Json (lookup)
open Node (nameText ownText? resolvedText? HasStringTexts strip)

/-- **The form of an import.** Its texts are texts, its clause and the bindings of the clause are
missing or objects, and the elements of the bindings are missing or a list of these objects. -/
structure Node.IsImport (fields : Fields) (elements : List Fields) : Prop where
  texts : (Json.obj fields).EachObject HasStringTexts
  clause : (lookup "importClause" fields).MaybeObject
  bindings : ((lookup "importClause" fields).field "namedBindings").MaybeObject
  elements : (((lookup "importClause" fields).field "namedBindings").field "elements").MaybeObjects
    elements

/-- Pushes that go to no context leave the buckets of a catalogue as they are. -/
theorem Catalogue.buckets_replay {ps : List Push} (h : ∀ p ∈ ps, p.context? = none)
    (catalogue : Catalogue) : (catalogue.replay ps).buckets = catalogue.buckets := by
  induction ps generalizing catalogue with
  | nil => rfl
  | cons p rest ih =>
    have hrest := ih (fun q hq => h q (List.mem_cons_of_mem _ hq)) (catalogue.push p)
    have hfirst : (catalogue.push p).buckets = catalogue.buckets := by
      have hnone := h p (List.mem_cons_self ..)
      cases p with
      | namespaceName name =>
        show (if _ then catalogue else _ : Catalogue).buckets = _
        split <;> rfl
      | importRecord record => rfl
      | _ => cases hnone
    exact hrest.trans hfirst

/-! ## Imported names -/

/-- A name that an import is to record: how it is imported and its text, or the element that has
none. -/
inductive ImportedName where
  | named (kind : ImportKind) (text : String)
  | unnamed (element : Fields)

namespace ImportedName

variable {kinds : KindTable} {source : String}

/-- The record of a name that is imported from a module. -/
def record? (source : String) : ImportedName → Option ImportRecord
  | .named kind text => ImportRecord.of? kind (.str text) (.str source)
  | .unnamed _ => none

/-- What a name without a record is to blame for: a text that does not stand for characters is
refused, and an element without a name is the node that cannot be resolved. -/
def Fails (kinds : KindTable) (source : String) (fault : Fault) : ImportedName → Prop
  | .named kind text => (Text.isWellFormed text = false ∨ Text.isWellFormed source = false) ∧
      fault = .invalid (Walker.importReport kind (.str text) (.str source))
  | .unnamed element => ∃ node, strip kinds (.obj element) = .ok node ∧
      fault = .unresolvableName node

/-- **What is pushed for a list of names,** and how it ends: the records of the names, one after the
other, up to the first name that has none. -/
inductive Recorded (kinds : KindTable) (source : String) :
    List ImportedName → List Push → Except Fault Unit → Prop where
  | done : Recorded kinds source [] [] (.ok ())
  | pushed {name : ImportedName} {record : ImportRecord} {rest : List ImportedName}
      {ps : List Push} {result : Except Fault Unit} (hname : name.record? source = some record)
      (hrest : Recorded kinds source rest ps result) :
      Recorded kinds source (name :: rest) (.importRecord record :: ps) result
  | failed {name : ImportedName} {rest : List ImportedName} {fault : Fault}
      (hname : name.record? source = none) (hfault : name.Fails kinds source fault) :
      Recorded kinds source (name :: rest) [] (.error fault)

variable {names others : List ImportedName} {ps qs : List Push} {result : Except Fault Unit}

/-- Names that all have records, and more names behind them. -/
theorem Recorded.append (h : Recorded kinds source names ps (.ok ()))
    (hothers : Recorded kinds source others qs result) :
    Recorded kinds source (names ++ others) (ps ++ qs) result := by
  generalize hok : (Except.ok () : Except Fault Unit) = ended at h
  induction h with
  | done => exact hothers
  | pushed hname _ ih => exact .pushed hname (ih hok)
  | failed => cases hok

/-- Names behind one that has no record do not matter. -/
theorem Recorded.append_error {fault : Fault} (h : Recorded kinds source names ps (.error fault))
    (others : List ImportedName) : Recorded kinds source (names ++ others) ps (.error fault) := by
  generalize herror : (Except.error fault : Except Fault Unit) = ended at h
  induction h with
  | done => cases herror
  | pushed hname _ ih => exact .pushed hname (ih herror)
  | failed hname hfault => exact .failed hname hfault

/-- The first name without a record is to blame, and the ones before it are pushed. -/
theorem Recorded.eq_of_first {before after : List ImportedName} {name : ImportedName}
    (h : Recorded kinds source (before ++ name :: after) ps result) {records : List ImportRecord}
    (hbefore : before.map (record? source) = records.map some)
    (hnone : name.record? source = none) :
    ps = records.map .importRecord ∧
      ∃ fault, result = .error fault ∧ name.Fails kinds source fault := by
  induction before generalizing records ps with
  | nil =>
    obtain rfl : records = [] := List.map_eq_nil_iff.mp hbefore.symm
    cases h with
    | pushed hname _ =>
      rw [hnone] at hname
      cases hname
    | failed _ hfault => exact ⟨rfl, _, rfl, hfault⟩
  | cons first rest ih =>
    obtain ⟨record, others, rfl, hfirst, hrest⟩ := List.map_eq_cons_iff.mp hbefore.symm
    cases h with
    | pushed hname hothers =>
      obtain ⟨rfl, hresult⟩ := ih hothers hrest.symm
      rw [Option.some.inj (hfirst.trans hname)]
      exact ⟨rfl, hresult⟩
    | failed hname _ => cases hfirst.trans hname

/-- A name in text has a record, or is to blame for a text that does not stand for characters. -/
theorem record?_named_eq_none {kind : ImportKind} {text : String} (htext : text ≠ "")
    (hsource : source ≠ "") (h : (named kind text).record? source = none) :
    Text.isWellFormed text = false ∨ Text.isWellFormed source = false := by
  unfold record? ImportRecord.of? at h
  dsimp only at h
  split at h
  next => cases h
  next hnone =>
    cases hwhat : Node.asName? (.str text) with
    | none => exact .inl ((Node.asName?_eq_none.mp hwhat).resolve_left htext)
    | some what =>
      cases hfrom : Node.asName? (.str source) with
      | none => exact .inr ((Node.asName?_eq_none.mp hfrom).resolve_left hsource)
      | some name => exact absurd hfrom (hnone what name hwhat)

end ImportedName

namespace Node

/-- The name of an element of the bindings of an import. -/
def elementName (element : Fields) : ImportedName :=
  match resolvedText? element with
  | some text => .named .explicit text
  | none => .unnamed element

/-- The names that bindings are to record: their own, if they have one, or those of the elements. -/
def boundNames (bindings : Json) (elements : List Fields) : List ImportedName :=
  match ownText? (bindings.field "name") with
  | some text => [.named .default text]
  | none => elements.map elementName

/-- The names that the clause of an import is to record: its own, if it has one, and behind it those
of the bindings. -/
def clauseNames (clause : Json) (elements : List Fields) : List ImportedName :=
  (ownText? (clause.field "name")).toList.map (.named .default) ++
    boundNames (clause.field "namedBindings") elements

theorem ne_empty_of_asText? {v : Json} {text : String} (h : asText? v = some text) : text ≠ "" := by
  unfold asText? at h
  split at h
  · split at h
    next => cases h
    next hne => exact Option.some.inj h ▸ hne
  · cases h

theorem ownText?_ne_empty {v : Json} {text : String} (h : ownText? v = some text) : text ≠ "" := by
  obtain ⟨_, -, htext⟩ := Option.bind_eq_some_iff.mp h
  exact ne_empty_of_asText? htext

theorem resolvedText?_ne_empty {fields : Fields} {text : String}
    (h : resolvedText? fields = some text) : text ≠ "" := by
  obtain ⟨_, -, htext⟩ := Option.bind_eq_some_iff.mp h
  exact ne_empty_of_asText? htext

end Node

/-! ## Steps that record names -/

namespace Walk

/-- A step records a list of names. -/
def Imports (kinds : KindTable) (source : String) (names : List ImportedName) (u : Walk Unit) :
    Prop :=
  ∀ drawn, ImportedName.Recorded kinds source names (Event.pushes (u drawn).events) (u drawn).result

variable {kinds : KindTable} {source : String} {names others : List ImportedName} {u v : Walk Unit}

theorem imports_pure : Imports kinds source [] (pure ()) := fun _ => .done

/-- The names of one step, and behind them those of the next. -/
theorem Imports.bind (hu : Imports kinds source names u) (hv : Imports kinds source others v) :
    Imports kinds source (names ++ others) (u >>= fun _ => v) := by
  intro drawn
  have hfirst := hu drawn
  cases hr : (u drawn).result with
  | error fault =>
    rw [bind_apply_error hr]
    exact (hr ▸ hfirst).append_error others
  | ok =>
    rw [bind_apply_ok hr, Event.pushes_append]
    exact (hr ▸ hfirst).append (hv _)

end Walk

namespace Walker

open Walk (Imports imports_pure)

/-- Records the name of an element of the bindings of an import. -/
def importElement (source element : Json) : Walk Unit := do
  let name ← resolveNameOf element
  pushImport .explicit name source

variable {w : Walker} {fields out : Fields} {source : String}

/-- A name in text. -/
theorem pushImport_records {kinds : KindTable} (kind : ImportKind) {text : String}
    (htext : text ≠ "") (hsource : source ≠ "") :
    Imports kinds source [.named kind text] (pushImport kind (.str text) (.str source)) := by
  intro drawn
  rw [pushImport_eq]
  cases hrecord : ImportRecord.of? kind (.str text) (.str source) with
  | some record => exact .pushed hrecord .done
  | none => exact .failed hrecord ⟨ImportedName.record?_named_eq_none htext hsource hrecord, rfl⟩

/-- The name of a stripped node that has one. -/
theorem resolveName_resolved (h : (Json.obj fields).EachObject HasStringTexts)
    (hstrip : strip w.kinds (.obj fields) = .ok (.obj out)) {text : String}
    (htext : resolvedText? fields = some text) : resolveName out = pure (.str text) := by
  unfold resolveName
  rw [Node.declaredName_text h hstrip, htext]
  rfl

/-- A stripped node without a name is logged and blamed. -/
theorem resolveName_unresolved (h : (Json.obj fields).EachObject HasStringTexts)
    (hstrip : strip w.kinds (.obj fields) = .ok (.obj out)) (hnone : resolvedText? fields = none)
    (drawn : Nat) : ∃ entry, resolveName out drawn =
      ⟨[.logged entry], drawn, .error (.unresolvableName (.obj out))⟩ := by
  unfold resolveName
  rw [Node.declaredName_text h hstrip, hnone]
  exact ⟨_, rfl⟩

/-- An element of bindings. -/
theorem importElement_records (h : (Json.obj fields).EachObject HasStringTexts)
    (hstrip : strip w.kinds (.obj fields) = .ok (.obj out)) (hsource : source ≠ "") :
    Imports w.kinds source [Node.elementName fields] (importElement (.str source) (.obj out)) := by
  have hsteps : importElement (.str source) (.obj out) =
      resolveName out >>= fun name => pushImport .explicit name (.str source) := rfl
  unfold Node.elementName
  rw [hsteps]
  cases htext : resolvedText? fields with
  | some text =>
    rw [resolveName_resolved h hstrip htext, pure_bind]
    exact pushImport_records .explicit (Node.resolvedText?_ne_empty htext) hsource
  | none =>
    intro drawn
    obtain ⟨entry, hentry⟩ := resolveName_unresolved h hstrip htext drawn
    rw [Walk.bind_apply_error (congrArg Outcome.result hentry), hentry]
    exact .failed rfl ⟨_, hstrip, rfl⟩

/-- The elements of bindings, one after the other. -/
theorem importElements_records {elements stripped : List Fields} (hsource : source ≠ "")
    (htexts : ∀ e ∈ elements, (Json.obj e).EachObject HasStringTexts)
    (hstrip : List.Forall₂ (fun e o => strip w.kinds (.obj e) = .ok (.obj o)) elements stripped) :
    Imports w.kinds source (elements.map Node.elementName)
      (Walk.forEach (importElement (.str source)) (stripped.map .obj)) := by
  induction hstrip with
  | nil => exact imports_pure
  | @cons e o elements stripped he _ ih =>
    exact (importElement_records (htexts e (List.mem_cons_self ..)) he hsource).bind
      (ih fun d hd => htexts d (List.mem_cons_of_mem _ hd))

/-- The bindings of a clause. -/
theorem collectBindings_records {bindings kept : Fields}
    (htexts : (Json.obj bindings).EachObject HasStringTexts)
    (hstrip : strip w.kinds (.obj bindings) = .ok (.obj kept)) (hsource : source ≠ "")
    {elements : List Fields} (helements : (lookup "elements" bindings).MaybeObjects elements) :
    Imports w.kinds source (Node.boundNames (.obj bindings) elements)
      (collectBindings (.str source) (.obj kept)) := by
  have hkept : strip w.kinds (lookup "name" bindings) = .ok (lookup "name" kept) :=
    Node.strip_fields hstrip (by decide) (by decide)
  have hlist : strip w.kinds (lookup "elements" bindings) = .ok (lookup "elements" kept) :=
    Node.strip_fields hstrip (by decide) (by decide)
  have hfield : (Json.obj bindings).field "name" = lookup "name" bindings := rfl
  unfold collectBindings Node.boundNames
  rw [Node.get_obj, Walk.ofExcept_ok, pure_bind,
    Node.identifierText_text (htexts.lookup "name") hkept, hfield]
  cases hname : ownText? (lookup "name" bindings) with
  | some text => exact pushImport_records .default (Node.ownText?_ne_empty hname) hsource
  | none =>
    obtain ⟨stripped, hstripped, hforall⟩ := Node.strip_maybeObjects helements hlist
    have hitems : Node.items ((Json.obj kept).field "elements") = .ok (stripped.map .obj) :=
      hstripped.items.2
    dsimp only [Option.map_none]
    rw [hitems, Walk.ofExcept_ok, pure_bind]
    exact importElements_records hsource (helements.eachObject (htexts.lookup "elements")) hforall

/-! ## Imports -/

section Clauses

variable {elements : List Fields} (h : Node.IsImport fields elements)
  (hstrip : strip w.kinds (.obj fields) = .ok (.obj out))

/-- Records the bindings of a clause, if there is anything left of them. -/
def namedBindings (source bindings : Json) : Walk Unit :=
  if bindings.truthy then collectBindings source bindings else pure ()

/-- Bindings of which nothing is left have nothing to record either. -/
theorem namedBindings_obj (source : Json) (kept : Fields) :
    namedBindings source (.obj kept) = collectBindings source (.obj kept) := by
  cases kept with
  | nil => rfl
  | cons f rest => rfl

include h hstrip

/-- The bindings of a clause, which may be missing. -/
theorem namedBindings_records (hsource : source ≠ "") :
    Imports w.kinds source
      (Node.boundNames ((lookup "importClause" fields).field "namedBindings") elements)
      (namedBindings (.str source) ((lookup "importClause" out).field "namedBindings")) := by
  have hclause : strip w.kinds (lookup "importClause" fields) = .ok (lookup "importClause" out) :=
    Node.strip_fields hstrip (by decide) (by decide)
  have hkept : strip w.kinds ((lookup "importClause" fields).field "namedBindings") =
      .ok ((lookup "importClause" out).field "namedBindings") :=
    Node.strip_field hclause (by decide) (by decide)
  have htexts := Node.eachObject_field (h.texts.lookup "importClause") "namedBindings"
  have helements := h.elements
  rcases h.bindings with hnull | ⟨bindings, hobj⟩
  · -- bindings that are missing have neither a name nor elements
    rw [hnull] at hkept helements ⊢
    obtain rfl : elements = [] := by
      rcases helements with ⟨-, hnone⟩ | harr
      · exact hnone
      · cases harr
    rw [← Except.ok.inj hkept]
    exact imports_pure
  · rw [hobj] at hkept helements htexts ⊢
    obtain ⟨_, kept, -, -, hout⟩ := Node.strip_obj_ok hkept
    rw [hout] at hkept ⊢
    rw [namedBindings_obj]
    exact collectBindings_records htexts hkept hsource helements

/-- With a clause, the name of the clause is recorded and then its bindings are. -/
theorem collectImport_clause (htext : resolvedText? fields = some source)
    (hpresent : (lookup "importClause" out).truthy = true) :
    Imports w.kinds source (Node.clauseNames (lookup "importClause" fields) elements)
      (w.collectImport (.obj fields)) := by
  have hsource := Node.resolvedText?_ne_empty htext
  have hclause : strip w.kinds (lookup "importClause" fields) = .ok (lookup "importClause" out) :=
    Node.strip_fields hstrip (by decide) (by decide)
  have hname : strip w.kinds ((lookup "importClause" fields).field "name") =
      .ok ((lookup "importClause" out).field "name") :=
    Node.strip_field hclause (by decide) (by decide)
  have hobj : ∃ kept, lookup "importClause" out = .obj kept := by
    rcases Node.strip_maybeObject h.clause hclause with hnull | hobj
    · rw [hnull] at hpresent
      cases hpresent
    · exact hobj
  have hbindings := namedBindings_records h hstrip hsource
  unfold collectImport Node.clauseNames
  rw [strippedFields_eq hstrip, pure_bind, resolveName_resolved h.texts hstrip htext, pure_bind]
  dsimp only
  rw [hpresent, Bool.not_true, if_neg Bool.false_ne_true, get_eq hobj, Walk.ofExcept_ok, pure_bind,
    Node.identifierText_text (Node.eachObject_field (h.texts.lookup "importClause") "name") hname]
  cases hown : ownText? ((lookup "importClause" fields).field "name") with
  | none => exact hbindings
  | some text =>
    exact (pushImport_records .default (Node.ownText?_ne_empty hown) hsource).bind hbindings

/-- Without a clause, what is recorded stands for a name that there is not. -/
theorem collectImport_bare (htext : resolvedText? fields = some source)
    (habsent : (lookup "importClause" out).truthy = false) (drawn : Nat) :
    ImportedName.Recorded w.kinds source [.named .default (w.placeholder (drawn + 1))]
      (Event.pushes (w.collectImport (.obj fields) drawn).events)
      (w.collectImport (.obj fields) drawn).result := by
  have hsteps : w.collectImport (.obj fields) = (do
      let count ← Walk.token
      pushImport .default (.str (w.placeholder count)) (.str source)) := by
    unfold collectImport
    rw [strippedFields_eq hstrip, pure_bind, resolveName_resolved h.texts hstrip htext, pure_bind]
    dsimp only
    rw [habsent, Bool.not_false, if_pos rfl]
  have htoken : (Walk.token drawn).result = .ok (drawn + 1) := rfl
  rw [hsteps, Walk.bind_apply_ok htoken]
  exact pushImport_records .default (w.placeholder_ne_empty (drawn + 1))
    (Node.resolvedText?_ne_empty htext) (drawn + 1)

/-- An import that does not name its module pushes nothing. -/
theorem collectImport_unresolved (hnone : resolvedText? fields = none) (drawn : Nat) :
    (w.collectImport (.obj fields) drawn).result = .error (.unresolvableName (.obj out)) ∧
      Event.pushes (w.collectImport (.obj fields) drawn).events = [] := by
  obtain ⟨entry, hentry⟩ := resolveName_unresolved h.texts hstrip hnone drawn
  unfold collectImport
  rw [strippedFields_eq hstrip, pure_bind,
    Walk.bind_apply_error (congrArg Outcome.result hentry), hentry]
  exact ⟨rfl, rfl⟩

end Clauses

/-- What an import pushes goes to no context. -/
theorem collectImport_contextless (w : Walker) (node : Json) (drawn : Nat) :
    ∀ p ∈ Event.pushes (w.collectImport node drawn).events, p.context? = none := by
  intro p hp
  have hensures := collectImport_ensures (w := w)
    (E := fun e => ∀ p, e = .pushed p → p.context? = none)
    (fun _ _ h => by cases h) (fun record p h => by obtain rfl := Event.pushed.inj h; rfl) node
  exact (hensures drawn).1 _ (mem_pushes hp) p rfl

/-- **What an import records.** Let an import be stripped without a fault. If it does not name the
module that it imports from, that is the fault, and nothing is pushed. Otherwise everything that is
pushed is imported from there. An import without a clause, or with one of which nothing is left, has
one name to record, which is made up. Any other has the name of its clause, if the clause has one,
and then the name of the bindings, if they have one, or that of each element if they have none.
These names are pushed in order, up to the first one of which no record can be made: an element
without a name is the fault itself, and a text that does not stand for characters is refused, be it
the name or the module.

No catalogue gets a bucket for an import. -/
theorem collectImport_records (w : Walker) {fields out : Fields} {elements : List Fields}
    (h : Node.IsImport fields elements)
    (hstrip : strip w.kinds (.obj fields) = .ok (.obj out)) (drawn : Nat) :
    let clause := lookup "importClause" fields
    let outcome := w.collectImport (.obj fields) drawn
    let pushed := Event.pushes outcome.events
    (resolvedText? fields = none →
      outcome.result = .error (.unresolvableName (.obj out)) ∧ pushed = []) ∧
    (∀ source, resolvedText? fields = some source →
      ((lookup "importClause" out).truthy = false → ImportedName.Recorded w.kinds source
        [.named .default (w.placeholder (drawn + 1))] pushed outcome.result) ∧
      ((lookup "importClause" out).truthy = true → ImportedName.Recorded w.kinds source
        (Node.clauseNames clause elements) pushed outcome.result)) ∧
    ∀ catalogue : Catalogue, (catalogue.replay pushed).buckets = catalogue.buckets := by
  intro clause outcome pushed
  refine ⟨fun hnone => collectImport_unresolved h hstrip hnone drawn,
    fun source htext => ⟨fun habsent => ?_, fun hpresent => ?_⟩,
    Catalogue.buckets_replay (w.collectImport_contextless (.obj fields) drawn)⟩
  · exact collectImport_bare h hstrip htext habsent drawn
  · exact collectImport_clause h hstrip htext hpresent drawn

/-- An import of a default and three names of which the second one is missing: the default and the
first name are recorded, and the element without a name is to blame. -/
theorem collectImport_records_partly :
    let w : Walker := ⟨"root", "namespace$", "import$", 32, KindTable.standard, .counted⟩
    let named (text : String) : Json := .obj [("text", .str text)]
    let elements : List Fields := [[("name", named "useState")],
      [("kind", .int 276), ("name", named "")], [("name", named "useRef")]]
    let fields : Fields := [("kind", .int 272), ("moduleSpecifier", named "react"),
      ("importClause", .obj [("name", named "React"),
        ("namedBindings", .obj [("elements", .arr (elements.map .obj))])])]
    let source : Name := ⟨"react", by decide +kernel⟩
    let outcome := w.collectImport (.obj fields) 0
    Node.IsImport fields elements ∧
      (∃ node, outcome.result = .error (.unresolvableName node)) ∧
      Event.pushes outcome.events = [.importRecord ⟨.default, ⟨"React", by decide +kernel⟩, source⟩,
        .importRecord ⟨.explicit, ⟨"useState", by decide +kernel⟩, source⟩] := by
  intro w named elements fields source outcome
  have hform : Node.IsImport fields elements :=
    ⟨by decide, .inr ⟨_, rfl⟩, .inr ⟨_, rfl⟩, .inr rfl⟩
  have hrecorded : ImportedName.Recorded w.kinds source
      ([.named .default "React", .named .explicit "useState"] ++ _ :: _)
      (Event.pushes outcome.events) outcome.result :=
    ((w.collectImport_records hform rfl 0).2.1 "react" rfl).2 rfl
  let records : List ImportRecord := [⟨.default, ⟨"React", by decide +kernel⟩, source⟩,
    ⟨.explicit, ⟨"useState", by decide +kernel⟩, source⟩]
  have hbefore : ([.named .default "React", .named .explicit "useState"] : List ImportedName).map
      (ImportedName.record? source) = records.map some := by decide +kernel
  obtain ⟨hpushed, fault, hresult, node, -, rfl⟩ :=
    ImportedName.Recorded.eq_of_first hrecorded hbefore rfl
  exact ⟨hform, ⟨node, hresult⟩, hpushed⟩

/-- **A text that does not stand for characters is refused:** an import without a clause from a
module whose name is half a surrogate pair has a name for its module, but nothing is pushed. -/
theorem collectImport_refused :
    let w : Walker := ⟨"root", "namespace$", "import$", 32, KindTable.standard, .counted⟩
    let source := String.singleton (Text.standIn 0xD800)
    let fields : Fields :=
      [("kind", .int 272), ("moduleSpecifier", .obj [("text", .str source)])]
    let outcome := w.collectImport (.obj fields) 0
    Node.IsImport fields [] ∧
      (∃ out, strip w.kinds (.obj fields) = .ok (.obj out) ∧
        (lookup "importClause" out).truthy = false) ∧
      resolvedText? fields = some source ∧
      outcome.result = .error (.invalid ⟨ImportRecord.subject, [⟨["source"], .notUnicode⟩]⟩) ∧
      Event.pushes outcome.events = [] := by
  intro w source fields outcome
  have hform : Node.IsImport fields [] := ⟨by decide, .inl rfl, .inl rfl, .inl ⟨rfl, rfl⟩⟩
  have hreport : importReport .default (.str (w.placeholder 1)) (.str source) =
      ⟨ImportRecord.subject, [⟨["source"], .notUnicode⟩]⟩ := by decide +kernel
  have hrecorded : ImportedName.Recorded w.kinds source
      ([] ++ .named .default (w.placeholder 1) :: []) _ outcome.result :=
    collectImport_bare hform rfl rfl rfl 0
  have hbefore : ([] : List ImportedName).map (ImportedName.record? source) =
      ([] : List ImportRecord).map some := rfl
  obtain ⟨hpushed, _, hresult, -, rfl⟩ := hrecorded.eq_of_first hbefore (by decide +kernel)
  exact ⟨hform, ⟨_, rfl, rfl⟩, rfl, hreport ▸ hresult, hpushed⟩

end Walker

end DeclCatalogue
