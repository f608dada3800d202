import DeclCatalogue.Proofs.Walk.Reports
import DeclCatalogue.Proofs.Walk.Seen

/-!
# One node under two contexts

A collector passes the context that it is given on to what it pushes and reports, and does nothing
else with it but ask whether it is a text. `Event.under` puts a push or a report under another
context, and `collect_under` compares two runs of a collector on one node: under contexts that are
both texts, or that are the same, the calls of one run are the calls of the other under its own
context, and both draw the same tokens and come to the same end, fault and node included. A
module is entered under either of them in the same way (`enterModule_under`).

Both runs are compared by what is seen of them. To one observer the second run shows its calls, to
another the first run shows its calls under the second context, and the two see the same.
-/

namespace DeclCatalogue

open Json (lookup setField)

/-! ## Under another context -/

/-- A declaration under another context, if that is a text. -/
def Declaration.under (context : Json) (d : Declaration) : Declaration :=
  match context with
  | .str s => { d with context := s }
  | _ => d

/-- A push under another context. Namespaces and imports are under none. -/
def Push.under (context : Json) : Push → Push
  | .declaration heading record _ => .declaration heading (record.under context) context
  | .variableRecord record _ => .variableRecord record context
  | .exportRecord record _ => .exportRecord record context
  | p => p

/-- A push or a report under another context. -/
def Event.under (context : Json) : Event → Event
  | .pushed p => .pushed (p.under context)
  | .exported d _ => .exported (d.under context) context
  | e => e

/-- What is seen of an event by one who takes pushes and reports to be under a context. -/
def Event.callUnder (context : Json) (e : Event) : Option Event :=
  e.call.map (Event.under context)

/-- Two contexts of one sort: they are the same, or both are texts. -/
def Json.OneSort (x y : Json) : Prop :=
  x = y ∨ (∃ s, x = .str s) ∧ ∃ t, y = .str t

theorem Json.OneSort.isKey_eq {x y : Json} (h : Json.OneSort x y) : x.isKey = y.isKey := by
  rcases h with rfl | ⟨⟨s, rfl⟩, t, rfl⟩
  · rfl
  · rfl

/-- Putting a record under another context asks for the same checks: both records are made, each
under its context, or the same issues are found. -/
theorem Declaration.make_oneSort {x y : Json} (h : Json.OneSort x y) (kind : DeclarationKind)
    (name : Json) (exported : Bool) (node : Fields) :
    (∃ record t, Declaration.make x kind name exported node = .valid record ∧ y = .str t ∧
        Declaration.make y kind name exported node = .valid { record with context := t }) ∨
      ∃ issues, Declaration.make x kind name exported node = .invalid issues ∧
        Declaration.make y kind name exported node = .invalid issues := by
  rcases h with rfl | ⟨⟨s, rfl⟩, t, rfl⟩
  · cases hmake : Declaration.make x kind name exported node with
    | valid record =>
      exact .inl ⟨record, record.context, rfl, (Declaration.make_eq_valid.mp hmake).1, rfl⟩
    | invalid issues => exact .inr ⟨issues, rfl, rfl⟩
  · unfold Declaration.make
    cases (Checked.name name).under "name" with
    | valid n => exact .inl ⟨⟨s, kind, n, exported, node⟩, t, rfl, rfl, rfl⟩
    | invalid issues => exact .inr ⟨issues, rfl, rfl⟩

namespace Walk

variable {x y : Json}

/-- A push under contexts of one sort. -/
theorem push_under (h : Json.OneSort x y) {p : Push} (hcontext : p.context? = some x) :
    (push (p.under y)).seen Event.call = (push p).seen (Event.callUnder y) := by
  have husable : p.isUsable = x.isKey := by
    unfold Push.isUsable
    rw [hcontext]
    rfl
  have hunder : (p.under y).isUsable = y.isKey := by
    cases p with
    | namespaceName name => cases hcontext
    | importRecord record => cases hcontext
    | _ => rfl
  unfold push
  rw [husable, hunder, h.isKey_eq]
  by_cases hkey : y.isKey = true
  · rw [if_pos hkey, if_pos hkey]
    rfl
  · rw [if_neg hkey, if_neg hkey]
    rfl

end Walk

/-- A record and the same record under another context are announced alike. -/
theorem Declaration.announce_under (record : Declaration) (t : String) (heading : Heading) :
    ({ record with context := t }.announce heading (.str t)).seen Event.call =
      (record.announce heading (.str record.context)).seen (Event.callUnder (.str t)) := by
  obtain ⟨context, kind, name, exported, node⟩ := record
  cases exported <;> rfl

namespace Walker

variable {w : Walker} {x y : Json}

/-! ## Collectors -/

theorem strippedFields_under (w : Walker) (node : Json) :
    (w.strippedFields node).seen Event.call =
      (w.strippedFields node).seen (Event.callUnder y) :=
  (strippedFields_ensures w node).seen_eq

theorem collectDeclaration_under (w : Walker) (h : Json.OneSort x y) (heading : Heading)
    (node : Json) :
    (w.collectDeclaration heading node y).seen Event.call =
      (w.collectDeclaration heading node x).seen (Event.callUnder y) := by
  rw [collectDeclaration_eq, collectDeclaration_eq]
  refine Walk.seen_bind_congr (w.strippedFields_under node) fun fields => ?_
  refine Walk.seen_bind_congr (resolveName_ensures (fun _ => rfl) fields).seen_eq fun name => ?_
  refine Walk.seen_bind_congr rfl fun modifiers => ?_
  rcases Declaration.make_oneSort h heading.kind name (modifiers.contains .exported)
    (setField "name" (.obj [("text", name)]) fields) with
    ⟨record, t, hx, rfl, hy⟩ | ⟨issues, hx, hy⟩
  · rw [hx, hy]
    exact record.announce_under t heading
  · rw [hx, hy]
    rfl

/-- The context of a variable that has no record is only logged. -/
theorem shapeVariable_under (w : Walker) (x y declaration : Json) :
    (w.shapeVariable y declaration).seen Event.call =
      (w.shapeVariable x declaration).seen (Event.callUnder y) := by
  unfold shapeVariable
  refine Walk.seen_bind_congr rfl fun type => Walk.seen_bind_congr rfl fun typeName => ?_
  dsimp only
  split
  · rfl
  · split
    · exact Walk.seen_bind_congr rfl fun pattern => rfl
    · refine Walk.seen_bind_congr rfl fun left => ?_
      rw [map_eq_pure_bind]
      exact Walk.seen_bind_congr rfl fun record => rfl

theorem shapeVariables_under (w : Walker) (x y : Json) (declarations : List Json) :
    (w.shapeVariables y declarations).seen Event.call =
      (w.shapeVariables x declarations).seen (Event.callUnder y) := by
  induction declarations with
  | nil => rfl
  | cons v rest ih =>
    rw [shapeVariables, shapeVariables]
    refine Walk.seen_bind_congr (w.shapeVariable_under x y v) fun shaped => ?_
    exact Walk.seen_bind_congr ih fun records => rfl

theorem collectVariables_under (w : Walker) (h : Json.OneSort x y) (node : Json) :
    (w.collectVariables node y).seen Event.call =
      (w.collectVariables node x).seen (Event.callUnder y) := by
  unfold collectVariables
  refine Walk.seen_bind_congr (w.strippedFields_under node) fun fields => ?_
  refine Walk.seen_bind_congr rfl fun listed => ?_
  refine Walk.seen_bind_congr (w.shapeVariables_under x y listed) fun records => ?_
  exact Walk.seen_forEach_congr fun record _ =>
    Walk.push_under (p := .variableRecord record x) h rfl

theorem collectExport_under (w : Walker) (h : Json.OneSort x y) (node : Json) :
    (w.collectExport node y).seen Event.call =
      (w.collectExport node x).seen (Event.callUnder y) := by
  unfold collectExport
  refine Walk.seen_bind_congr (w.strippedFields_under node) fun fields => ?_
  split
  · rfl
  · exact Walk.seen_bind_congr rfl fun record =>
      Walk.push_under (p := .exportRecord record x) h rfl

/-- **A collector passes its context on.** Under two contexts of one sort it makes the same calls,
each under its context, draws the same tokens and comes to the same end. -/
theorem collect_under (w : Walker) (h : Json.OneSort x y) (collector : Collector) (node : Json) :
    (w.collect collector node y).seen Event.call =
      (w.collect collector node x).seen (Event.callUnder y) := by
  cases collector with
  | declaration heading => exact w.collectDeclaration_under h heading node
  | variableStatement => exact w.collectVariables_under h node
  | exportAssignment => exact w.collectExport_under h node
  | importDeclaration =>
    exact (collectImport_ensures (fun _ => rfl) (fun _ => rfl) node).seen_eq

/-! ## Modules -/

/-- The context around a module is only logged when it is entered. -/
theorem enterModule_under (w : Walker) (x y : Json) (fields : Fields) :
    (w.enterModule fields y).seen Event.call =
      (w.enterModule fields x).seen (Event.callUnder y) := by
  have hinside : (w.enterModule fields y).seen Event.call =
      (w.enterModule fields y).seen (Event.callUnder y) :=
    (enterModule_ensures (fun _ => rfl) (fun _ => rfl) fields y).seen_eq
  rw [hinside]
  unfold enterModule
  split
  · rfl
  · rfl

/-! ## Prefixes of namespaces -/

theorem shapeVariables_namespacePrefix (w : Walker) (p : String) (context : Json)
    (declarations : List Json) :
    { w with namespacePrefix := p }.shapeVariables context declarations =
      w.shapeVariables context declarations := by
  induction declarations with
  | nil => rfl
  | cons v rest ih =>
    rw [shapeVariables, shapeVariables, ih]
    rfl

theorem collect_namespacePrefix (w : Walker) (p : String) (collector : Collector)
    (node context : Json) :
    { w with namespacePrefix := p }.collect collector node context =
      w.collect collector node context := by
  cases collector with
  | variableStatement =>
    show collectVariables _ _ _ = collectVariables _ _ _
    unfold collectVariables
    simp only [shapeVariables_namespacePrefix]
    rfl
  | _ => rfl

/-- A module is entered alike but for the context that it hands on. -/
theorem enterModule_namespacePrefix (w : Walker) (p : String) (fields : Fields) (context : Json) :
    (do
      let _ ← { w with namespacePrefix := p }.enterModule fields context
      pure () : Walk Unit) = (do
      let _ ← w.enterModule fields context
      pure ()) := by
  unfold enterModule
  cases Node.identifierText (lookup "name" fields) with
  | none => rfl
  | some name =>
    simp only [bind_assoc]
    refine bind_congr fun flags => ?_
    split
    · rfl
    · rfl

end Walker

end DeclCatalogue
