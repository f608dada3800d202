import DeclCatalogue.Proofs.Walk.Reports
import DeclCatalogue.Proofs.Walk.View

/-!
# Recorded nodes are fixed points

The node that a record keeps is a statement again, and walking it gives the same record: stripping
takes nothing more away from it, its kind is a name that every table keeps, the one text under its
name is found as its name, and its modifiers read as they did. `Declaration.IsFixed` collects what
this rests on, `walk_fixed` says that every declaration a walk pushes has it, and `walk_recorded`
walks the node of such a record again, with any settings and any table of kinds.
-/

namespace DeclCatalogue

open Json (lookup setField EachObject)

/-- What makes the node of a record give the record again under a heading. -/
structure Declaration.IsFixed (record : Declaration) (heading : Heading) : Prop where
  kind : record.kind = heading.kind
  tag : lookup "kind" record.node = .str heading.syntaxKind.name
  name : lookup "name" record.node = .obj [("text", .str record.name)]
  clean : (Json.obj record.node).EachObject Node.IsClean
  modifiers : ∃ found, Node.modifiers (.obj record.node) = .ok found ∧
    found.contains .exported = record.exported

/-- A record of a node of the heading's kind, whose modifiers can be read. -/
theorem Declaration.IsRecordOf.isFixed {record : Declaration} {kinds : KindTable}
    {heading : Heading} {node : Json} (h : record.IsRecordOf kinds heading node)
    (hkind : kinds.kindName node = .ok (some heading.syntaxKind.name))
    (hmodifiers : ∃ found, Node.modifiers (.obj record.node) = .ok found) :
    record.IsFixed heading := by
  obtain ⟨found, hfound⟩ := hmodifiers
  refine ⟨h.kind, h.lookup_kind hkind, h.name, h.clean, found, hfound, ?_⟩
  rw [Bool.eq_iff_iff, h.exported]
  exact Node.contains_modifiers .exported hfound

namespace Declaration.IsFixed

variable {record : Declaration} {heading : Heading}

/-- The name of the record is the name of its node. -/
theorem declaredName (h : record.IsFixed heading) :
    Node.declaredName? record.node = some (.str record.name) := by
  have htext : (Json.str record.name).present? = some (.str record.name) := by
    unfold Json.present?
    rw [if_pos (by simpa [Json.truthy] using record.name.property.1)]
  have hown : Node.identifierText (lookup "name" record.node) = some (.str record.name) := by
    rw [h.name]
    simp [Node.identifierText, Json.lookup_cons, htext]
  unfold Node.declaredName?
  rw [hown]
  rfl

/-- Replacing the name of the node by the name of the record changes nothing. -/
theorem setField_name (h : record.IsFixed heading) :
    setField "name" (.obj [("text", .str record.name)]) record.node = record.node := by
  rcases Node.find?_eq_none_or_some "name" record.node with ⟨-, hnull⟩ | hfind
  · rw [h.name] at hnull
    cases hnull
  · rw [h.name] at hfind
    exact Json.setField_self hfind

/-- The kind of the node is its name, whatever the table says. -/
theorem kindName (h : record.IsFixed heading) (kinds : KindTable) :
    kinds.kindName (.obj record.node) = .ok (some heading.syntaxKind.name) := by
  rw [KindTable.kindName, h.tag]
  rfl

end Declaration.IsFixed

namespace Walker

variable {record : Declaration} {heading : Heading}

/-! ## Collecting and walking a node again -/

/-- Collecting the node of a record is announcing the record. -/
theorem collectDeclaration_fixed (again : Walker) (h : record.IsFixed heading) :
    again.collectDeclaration heading (.obj record.node) (.str record.context) =
      record.announce heading (.str record.context) := by
  obtain ⟨found, hfound, hexported⟩ := h.modifiers
  have hname : resolveName record.node = pure (.str record.name) := by
    unfold resolveName
    rw [h.declaredName]
  have hmake : Declaration.make (.str record.context) heading.kind (.str record.name)
      (found.contains .exported) record.node = .valid record :=
    Declaration.make_eq_valid.mpr ⟨rfl, rfl, h.kind, hexported.symm, rfl⟩
  rw [collectDeclaration_eq, strippedFields_eq (Node.strip_of_clean again.kinds _ h.clean),
    pure_bind, hname, pure_bind]
  dsimp only
  rw [h.setField_name, hfound, Walk.ofExcept_ok, pure_bind, hmake, Walk.ofChecked_valid, pure_bind]

/-- Walking the node of a record as the one statement of a tree is announcing the record. -/
theorem tree_fixed (again : Walker) (h : record.IsFixed heading) :
    again.tree (.str record.context) (.obj [("statements", .arr [.obj record.node])]) =
      record.announce heading (.str record.context) := by
  have hstatement : again.statement (.str record.context) (.obj record.node) =
      record.announce heading (.str record.context) := by
    rw [statement_obj, h.kindName, Walk.ofExcept_ok, pure_bind]
    unfold dispatch
    rw [Option.bind_some, StatementKind.ofName?_heading]
    exact again.collectDeclaration_fixed h
  rw [tree_obj]
  show again.statements _ [.obj record.node] = _
  rw [statements_eq_forEach, Walk.forEach, Walk.forEach, hstatement]
  exact bind_pure _

/-! ## What walks push -/

/-- An event that pushes no declaration but one that its node gives again, under its context. -/
def PushesFixed (e : Event) : Prop :=
  ∀ heading record context, e = .pushed (.declaration heading record context) →
    context = .str record.context ∧ record.IsFixed heading

theorem collect_fixed {w : Walker} {collector : Collector} {node : Json} (context : Json)
    (hkind : ∀ heading, collector = .declaration heading →
      w.kinds.kindName node = .ok (some heading.syntaxKind.name)) :
    (w.collect collector node context).Ensures PushesFixed (fun _ => True) AnyFault := by
  refine collector_ensures collector node context (fun _ _ _ _ h => by cases h)
    (fun _ _ _ _ _ h => by cases h) ?_ ?_
  · intro heading record hcollector hcontext hrecord hmodifiers heading' record' context' heq
    cases heq
    exact ⟨hcontext, hrecord.isFixed (hkind heading hcollector) hmodifiers⟩
  · intro p _ hother heading record key heq
    exact absurd (Event.pushed.inj heq) (hother heading record key)

theorem walkRule_fixed (w : Walker) : WalkRule w (fun _ => PushesFixed) AnyFault := by
  refine walkRule_uniform (fun _ _ _ _ h => by cases h) (fun _ _ _ _ h => by cases h) ?_
  intro collector fields context name hkind hstep
  refine collect_fixed context fun heading hcollector => ?_
  rw [hcollector] at hstep
  rw [hkind, StatementKind.ofName?_eq_declaration hstep]

/-- Every declaration that a walk pushes is given again by its node. -/
theorem walk_fixed (w : Walker) {tree : Json} {context : Option Json} {drawn : Nat} {key : Json}
    (hpush : .declaration heading record key ∈ Event.pushes (w.walk tree context drawn).events) :
    key = .str record.context ∧ record.IsFixed heading :=
  (tree_ensures w.walkRule_fixed _ tree drawn).1 _ (mem_pushes hpush) heading record key rfl

/-- A declaration is reported by a walk that pushes it if it is exported, and not otherwise. -/
theorem mem_exports_iff (w : Walker) {tree : Json} {context : Option Json} {drawn : Nat}
    {key : Json}
    (hpush : .declaration heading record key ∈ Event.pushes (w.walk tree context drawn).events) :
    (record, key) ∈ Event.exports (w.walk tree context drawn).events ↔
      record.exported = true := by
  have hreports : Event.exports _ = _ := w.walk_reports tree context drawn
  rw [hreports, List.mem_filterMap]
  constructor
  · rintro ⟨p, -, hp⟩
    -- whatever push the report comes with, it is one of this very record
    cases p with
    | declaration _ other _ =>
      simp only [Push.report?] at hp
      split at hp
      next hexported =>
        obtain ⟨rfl, -⟩ := Prod.mk.inj (Option.some.inj hp)
        exact hexported
      next => cases hp
    | _ => cases hp
  · intro hexported
    exact ⟨_, hpush, by simp [Push.report?, hexported]⟩

/-- **Recorded nodes are fixed points.** Let a walk push a declaration. Its node alone, walked under
the same context with any settings and any table of kinds, succeeds with one push, of the very same
record under the same heading, and the record is reported as exported exactly if the first walk
reported it. -/
theorem walk_recorded (w again : Walker) {tree : Json} {context : Option Json} {drawn : Nat}
    {key : Json}
    (hpush : .declaration heading record key ∈ Event.pushes (w.walk tree context drawn).events)
    (drawnAgain : Nat) :
    again.walk (.obj [("statements", .arr [.obj record.node])]) (some key) drawnAgain =
      ⟨(if (record, key) ∈ Event.exports (w.walk tree context drawn).events then
          [.exported record key] else []) ++ [.pushed (.declaration heading record key)],
        drawnAgain, .ok ()⟩ := by
  obtain ⟨rfl, hfixed⟩ := w.walk_fixed hpush
  have hexports := w.mem_exports_iff hpush
  show again.tree (.str record.context) _ drawnAgain = _
  rw [again.tree_fixed hfixed, record.announce_apply]
  simp only [hexports]

/-- An exported function in the body of a module, whose kinds are numbers of a table that the second
walk does not have: the second walk pushes and reports what the first one did. -/
theorem walk_recorded_exported :
    let w : Walker := ⟨"root", "namespace$", "import$", 40,
      ⟨[(1, "ModuleDeclaration"), (2, "FunctionDeclaration"), (3, "ExportKeyword")]⟩, .counted⟩
    let again : Walker := ⟨"top", "", "", 0, ⟨[(2, "ClassDeclaration")]⟩, .counted⟩
    let function : Json := .obj [("kind", .int 2), ("pos", .int 0), ("flags", .int 1),
      ("name", .obj [("kind", .int 80), ("escapedText", .str "f"), ("end", .int 1)]),
      ("modifiers", .arr [.obj [("kind", .int 3)]])]
    let tree : Json := .obj [("statements", .arr [.obj [("kind", .int 1),
      ("name", .obj [("text", .str "A")]), ("body", .obj [("statements", .arr [function])])]])]
    let record : Declaration := ⟨"A", .function, ⟨"f", by decide⟩, true,
      [("kind", .str "FunctionDeclaration"), ("name", .obj [("text", .str "f")]),
        ("modifiers", .arr [.obj [("kind", .str "ExportKeyword")]])]⟩
    .declaration .functions record (.str "A") ∈ Event.pushes (w.walk tree none 0).events ∧
      again.walk (.obj [("statements", .arr [.obj record.node])]) (some (.str "A")) 3 =
        ⟨[.exported record (.str "A"), .pushed (.declaration .functions record (.str "A"))], 3,
          .ok ()⟩ := by
  intro w again function tree record
  have hpush : .declaration .functions record (.str "A") ∈
      Event.pushes (w.walk tree none 0).events := by decide +kernel
  have hreported : (record, .str "A") ∈ Event.exports (w.walk tree none 0).events := by
    decide +kernel
  have hagain := w.walk_recorded again hpush 3
  rw [if_pos hreported] at hagain
  exact ⟨hpush, hagain⟩

end Walker

end DeclCatalogue
