import DeclCatalogue.Proofs.Extraction.RecordedNames
import DeclCatalogue.Proofs.Tree.ExpressionName

/-!
# Extracting default exports

From an exported expression in the concrete tree to the record that is pushed. A chain of member
accesses becomes a tree of property accesses, is stripped with the statement around it and taken
apart again; `extractSource_exports` says that what comes out is the chain that went in, with its
parentheses gone, and that an export whose innermost object has no name ends the extraction.
-/

namespace DeclCatalogue

open Json (lookup)
open Node (asName? fullName?)
open DeclCatalogue.Tree (make Yields Built)

/-- A value that is exported as what it declares: a class or a function with a name. -/
def IsDeclaredValue (value : SourceTree) : Prop :=
  value.type ∈ ["class", "class_declaration", "function", "function_expression",
    "function_declaration"] ∧ (Cst.childAt? "name" value.children).isSome

/-- A node that is read as the export of an expression. -/
def ExportsExpression (expression : Option Json) (us : List Json) : Prop :=
  ∃ fields, us = [.obj fields] ∧
    lookup "kind" fields = .int SyntaxKind.exportAssignment.code ∧
    lookup "expression" fields = expression.getD .null

variable {source : Source} {c value : SourceTree} {names : List String}
  {inherited : List ModifierKind}

/-- A chain is no class and no function. -/
theorem IsChain.not_isDeclaredValue (h : IsChain source names value) : ¬ IsDeclaredValue value := by
  rintro ⟨hmem, -⟩
  cases h with
  | name htype => exact absurd (htype ▸ hmem) (by decide)
  | property htype => exact absurd (htype ▸ hmem) (by decide)
  | parenthesized htype => exact absurd (htype ▸ hmem) (by decide)

/-- A value that is not exported as what it declares is exported as an expression. -/
theorem exportValue_expression (hvalue : ¬ IsDeclaredValue value) (head : CstHead)
    (children : List Tree.ReadNode) (modifiers : List ModifierKind) :
    (Tree.exportValue source head children modifiers (Tree.readTree source value)).result =
      ((Tree.readTree source value).note.expression).map fun expression =>
        make .exportAssignment head
          [("isExportEquals",
              if (Cst.tokens children).contains "=" then some (.bool true) else none),
            ("expression", expression)] := by
  have htype : (Tree.readTree source value).type = value.type :=
    congrArg CstHead.type (Tree.head_readTree value)
  unfold Tree.exportValue
  dsimp only
  rw [htype, Tree.children_readTree, Tree.childAt?_readTree, Option.isSome_map, if_neg, if_neg]
  · cases (Tree.readTree source value).note.expression <;> rfl
  · rintro ⟨hfunction, hname⟩
    refine hvalue ⟨?_, hname⟩
    rcases hfunction with h | h | h <;> rw [h] <;> decide
  · rintro ⟨hclass, hname⟩
    refine hvalue ⟨?_, hname⟩
    rcases hclass with h | h <;> rw [h] <;> decide

/-- The export of a value that is not declared is read as that of an expression. -/
theorem readTree_export (source : Source) (htype : c.type = "export_statement")
    (hplace : Placement.of source c.head c.children = .itself)
    (hof : Sites.valueOf? c.children = some value) (hvalue : ¬ IsDeclaredValue value)
    (inherited : List ModifierKind) :
    Yields ((Tree.readTree source c).note.statement inherited).result fun us =>
      ∃ expression, (Tree.readTree source value).note.expression = .ok expression ∧
        ExportsExpression expression us := by
  have hshape : Tree.StatementShape.ofType c.head.type = .exporting := by
    rw [show c.head.type = "export_statement" from htype]
    rfl
  have hdeclaration : Cst.childAt? "declaration" c.children = none := by
    unfold Placement.of at hplace
    rw [hshape] at hplace
    dsimp only at hplace
    unfold Placement.ofExport at hplace
    cases hdeclaration : Cst.childAt? "declaration" c.children with
    | none => rfl
    | some declaration =>
      rw [hdeclaration] at hplace
      cases hplace
  have hexported : Tree.exportedValue? (c.children.map (Tree.readTree source)) =
      some (Tree.readTree source value) := by
    have hhead : ∀ child, (Tree.readTree source child).head = child.head := Tree.head_readTree
    have hsites := Sites.valueOf?_map hhead c.children
    rw [hof] at hsites
    exact hsites
  rw [Tree.note_readTree]
  show Yields (Tree.statement source c.head (c.children.map (Tree.readTree source))
    inherited).result _
  unfold Tree.statement
  rw [hshape]
  dsimp only
  unfold Tree.exportStatement
  rw [Tree.childAt?_readTree, hdeclaration, hexported]
  simp only [Option.map_none, Built.result_bind, Built.result_pure]
  rw [exportValue_expression hvalue]
  cases hexpression : (Tree.readTree source value).note.expression with
  | error fault => exact fun us hus => by cases hus
  | ok expression =>
    refine Tree.yields_ok ⟨expression, rfl, _, rfl, rfl, ?_⟩
    exact Tree.lookup_present_of_mem (by simp) (List.mem_cons_of_mem _ (List.mem_singleton_self _))

/-! ## Visits of exports -/

/-- An export of an expression with a name. -/
theorem View.export_apply {v : View} {name : Name} (h : v.expression = some name) (context : String)
    (drawn : Nat) : v.export context drawn =
      ⟨[.pushed (.exportRecord ⟨name, true⟩ (.str context))], drawn, .ok ()⟩ := by
  unfold View.export
  rw [h, NameView.resolve_some, pure_bind]
  rfl

/-- **A visit of an exported expression** records the name of the expression, or ends for want of
one. -/
theorem Walker.visit_export {w : Walker} (hkinds : w.kinds = .standard) {us : List Json}
    (hread : ((Tree.readTree source c).note.statement inherited).result = .ok us)
    {expression : Option Json} (h : ExportsExpression expression us) (context : String)
    (drawn : Nat) :
    let paid := w.visit source (.statement context inherited c) drawn
    (∀ name, fullName? (expression.getD .null) = some name →
      paid.result = .ok () ∧ paid.drawn = drawn ∧
        Event.pushes paid.events = [.exportRecord ⟨name, true⟩ (.str context)]) ∧
    (fullName? (expression.getD .null) = none → paid.FindsNoName) := by
  intro paid
  obtain ⟨fields, rfl, hkind, hexpression⟩ := h
  have hview := w.visit_view hread context
  have hstatement : (View.of .standard fields).statement w (w.innerBody fields) context =
      (View.of .standard fields).export context := by
    unfold View.statement
    rw [View.step_standard hkind]
    rfl
  rw [hkinds, hstatement] at hview
  rw [← hexpression]
  refine ⟨fun name hname => ?_, fun hnone => ?_⟩
  · obtain ⟨hevents, hdrawn, hresult⟩ := hview drawn
    rw [View.export_apply hname] at hevents hdrawn hresult
    refine ⟨hresult.eq_ok, hdrawn, ?_⟩
    -- there is no node in the record, so it is seen as it is
    have hbare := Event.pushes_bare paid.events
    rw [hevents] at hbare
    obtain ⟨p, hp, hrecord⟩ := List.map_eq_singleton_iff.mp hbare.symm
    cases p with
    | declaration heading own under => cases hrecord
    | _ => exact hp.trans (congrArg (fun q => [q]) hrecord)
  · rw [View.export_unnamed hnone] at hview
    exact hview.findsNoName ⟨_, rfl⟩ drawn

/-! ## Extractions -/

namespace World

/-- **Default exports from the source to the catalogue.** Let an extraction with the standard kinds
get to an export of a value, wherever it stands. If the value is a chain of names, one export is
recorded for it, under the context of the statement, between what was pushed before and what is
pushed by the visits behind: a default one, whose name is the names of the chain with points between
them. If the innermost object of the value says nothing as an expression, and the value is no class
and no function with a name, the extraction ends there for want of a name, and pushes nothing more.
-/
theorem extractSource_exports (world : World) (settings : Settings)
    (hkinds : settings.kindTable world.files = .ok .standard) (bytes : ByteArray)
    (module fileName : Option String) (tsx : Option Bool) (drawn : Nat) {before after : List Visit}
    {context : String} {inherited : List ModifierKind} {c value : SourceTree}
    (hvisit : world.Reaches settings bytes module fileName tsx drawn before
      (.statement context inherited c) after)
    (htype : c.type = "export_statement") (hof : Sites.valueOf? c.children = some value) :
    let w := settings.walker .standard world.tokens
    let outcome := world.extractSource settings bytes module fileName tsx drawn
    let start := w.course ⟨bytes⟩ before drawn
    (∀ names, IsChain ⟨bytes⟩ names value → ∃ record : ExportRecord,
      record.name.val = ".".intercalate names ∧ record.isDefault = true ∧
        Event.pushes outcome.events = Event.pushes start.events ++
          .exportRecord record (.str context) ::
            Event.pushes (w.course ⟨bytes⟩ after start.drawn).events) ∧
    (EndsUnnamed value → ¬ IsDeclaredValue value →
      (∃ node, outcome.result = .error (.unresolvableName node)) ∧
        Event.pushes outcome.events = Event.pushes start.events) := by
  intro w outcome start
  obtain ⟨us, hread⟩ := hvisit.reads hkinds
  obtain ⟨hpaid, hfailed⟩ := hvisit.outcome hkinds
  have hexports (hvalue : ¬ IsDeclaredValue value) :=
    readTree_export ⟨bytes⟩ htype hvisit.atItself hof hvalue inherited us hread
  refine ⟨fun names hchain => ?_, fun hends hvalue => ?_⟩
  · obtain ⟨expression, hexpression, hexport⟩ := hexports hchain.not_isDeclaredValue
    have hentity := Tree.readTree_chain hchain expression hexpression
    have hname := hchain.areNames.2.intercalate hchain.areNames.1
    have hfull : fullName? (expression.getD .null) = some ⟨".".intercalate names, hname⟩ := by
      unfold fullName?
      rw [hentity]
      exact Node.asName?_nameText ⟨".".intercalate names, hname⟩
    obtain ⟨hok, hdrawn, hpushes⟩ :=
      (Walker.visit_export (w := w) rfl hread hexport context start.drawn).1 _ hfull
    have houtcome := hpaid hok
    rw [hpushes, hdrawn, List.append_assoc] at houtcome
    exact ⟨_, rfl, rfl, houtcome⟩
  · obtain ⟨expression, hexpression, hexport⟩ := hexports hvalue
    have hentity := Tree.readTree_endsUnnamed ⟨bytes⟩ hends expression hexpression
    have hfull : fullName? (expression.getD .null) = none := by
      unfold fullName?
      rw [hentity]
      rfl
    obtain ⟨⟨node, hnode⟩, hnone⟩ :=
      (Walker.visit_export (w := w) rfl hread hexport context start.drawn).2 hfull
    obtain ⟨hpushes, other, hother, houtline⟩ := hfailed _ hnode
    obtain ⟨node, rfl⟩ := Fault.isNameless_of_outline houtline ⟨_, rfl⟩
    rw [hnone, List.append_nil] at hpushes
    exact ⟨⟨node, hother⟩, hpushes⟩

/-- An export of a value. -/
def exportOfValue (keyword : String) (value : SourceTree) : SourceTree :=
  .node ⟨"export_statement", true, none, 0, 0⟩ ()
    [.node ⟨"export", false, none, 0, 0⟩ () [], .node ⟨keyword, false, none, 0, 0⟩ () [], value]

/-- An access to the property that stands at the given bytes. -/
def accessOf (field : Option String) (object : SourceTree) (start stop : Nat) : SourceTree :=
  .node ⟨"member_expression", true, field, 0, 0⟩ ()
    [object, .node ⟨"property_identifier", true, some "property", start, stop⟩ () []]

/-- A chain of three names, exported from a namespace, and a call, exported behind it: the chain is
recorded in the context of the namespace, and the call ends the extraction. -/
theorem extractSource_exports_chain :
    let bytes := "namespace N \x7b export default (a.b).c; \x7d export = f();".toUTF8
    let access := accessOf none (.node ⟨"identifier", true, some "object", 30, 31⟩ () []) 32 33
    let chain := accessOf (some "value")
      (.node ⟨"parenthesized_expression", true, some "object", 0, 0⟩ () [access]) 35 36
    let call : SourceTree := .node ⟨"call_expression", true, none, 49, 52⟩ () []
    let root : SourceTree := .node ⟨"program", true, none, 0, 53⟩ ()
      [namespaceNode 10 11 (blockOf (exportOfValue "default" chain)), exportOfValue "=" call]
    let outcome := (always root).extractSource Settings.standard bytes none none none 0
    ∃ record : ExportRecord, record.name.val = "a.b.c" ∧ record.isDefault = true ∧
      Event.pushes outcome.events =
        [.namespaceName (.str "N"), .exportRecord record (.str "npm$namespace$N")] ∧
      ∃ node, outcome.result = .error (.unresolvableName node) := by
  intro bytes access chain call root outcome
  let enter : Visit := .enter ⟨"N", NodeFlag.namespaceModule.bit⟩
  let first : Visit := .statement "npm$namespace$N" [] (exportOfValue "default" chain)
  let second : Visit := .statement "root" [] (exportOfValue "=" call)
  have hpushed : Event.pushes outcome.events ≠ [] := by decide +kernel
  have hvisits : (always root).visits Settings.standard bytes none none =
      [enter, first, second] := by decide +kernel
  have hfirst : (always root).Reaches Settings.standard bytes none none none 0 [enter] first
      [second] := .of_pushed rfl hpushed hvisits (by decide +kernel)
  have hsecond : (always root).Reaches Settings.standard bytes none none none 0 [enter, first]
      second [] := .of_pushed rfl hpushed hvisits (by decide +kernel)
  have hnames : IsChain ⟨bytes⟩ ["a", "b", "c"] chain :=
    .property rfl rfl (.parenthesized rfl rfl (.property rfl rfl
      (.name rfl (by decide +kernel) (by decide)) rfl (by decide +kernel) (by decide)))
      rfl (by decide +kernel) (by decide)
  obtain ⟨hrecorded, -⟩ := extractSource_exports (always root) Settings.standard rfl bytes none
    none none 0 hfirst rfl rfl
  obtain ⟨record, hname, hdefault, hpushes⟩ := hrecorded _ hnames
  obtain ⟨-, hfailed⟩ := extractSource_exports (always root) Settings.standard rfl bytes none
    none none 0 hsecond rfl rfl
  obtain ⟨hended, -⟩ := hfailed (.innermost (by decide)) fun h => absurd h.1 (by decide)
  have hbefore : Event.pushes ((Settings.standard.walker .standard (always root).tokens).course
      ⟨bytes⟩ [enter] 0).events = [.namespaceName (.str "N")] := by decide +kernel
  have hafter : Event.pushes ((Settings.standard.walker .standard (always root).tokens).course
      ⟨bytes⟩ [second] ((Settings.standard.walker .standard (always root).tokens).course ⟨bytes⟩
        [enter] 0).drawn).events = [] := by decide +kernel
  rw [hbefore, hafter] at hpushes
  exact ⟨record, hname.trans (by decide), hdefault, hpushes, hended⟩

/-- A module without a name is passed over with everything in it: the extraction succeeds, and
nothing is recorded of the export in its body. -/
theorem extractSource_exports_unnamedModule :
    let bytes := "module \x7b export default foo; \x7d".toUTF8
    let value : SourceTree := .node ⟨"identifier", true, some "value", 24, 27⟩ () []
    let unnamed : SourceTree := .node ⟨"module", true, none, 0, 30⟩ ()
      [blockOf (exportOfValue "default" value)]
    let outcome := (always (blockOf unnamed)).extractSource Settings.standard bytes none none none 0
    Sites.valueOf? (exportOfValue "default" value).children = some value ∧
      IsChain ⟨bytes⟩ ["foo"] value ∧
      outcome.result.isOk = true ∧ Event.pushes outcome.events = [] := by
  intro bytes value unnamed outcome
  exact ⟨rfl, .name rfl (by decide +kernel) (by decide), by decide +kernel, by decide +kernel⟩

end World

end DeclCatalogue
