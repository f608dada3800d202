import DeclCatalogue.Proofs.Extraction.Sites
import DeclCatalogue.Proofs.Walk.Collect
import DeclCatalogue.Proofs.Walk.Safety

/-!
# What a walk records

`Walk.Records v sites` says that, if the step `v` succeeds, the declarations that it pushes are
those of `sites`, one for each and in their order. Other pushes are not looked at. Steps in a row
record the sites of one after those of the other.

With the standard names of kinds, a statement records what it is: a declaration itself, a module
what is recorded in its body, and anything else nothing (`statement_records_declaration`,
`statement_records_module`, `statement_declaresNothing`).
-/

namespace DeclCatalogue

open Json (lookup)

/-- Whether a push is one of a declaration. -/
def Push.isDeclaration : Push → Bool
  | .declaration .. => true
  | _ => false

/-- The declarations that are pushed among events. -/
def Event.declared (events : List Event) : List Push :=
  (Event.pushes events).filter Push.isDeclaration

theorem Event.declared_append (es fs : List Event) :
    Event.declared (es ++ fs) = Event.declared es ++ Event.declared fs := by
  unfold Event.declared
  rw [Event.pushes_append, List.filter_append]

/-- The node of a record has no part in which site it records. -/
theorem DeclarationSite.recordedBy_bare (site : DeclarationSite) (p : Push) :
    site.RecordedBy p.bare ↔ site.RecordedBy p := by
  cases p with
  | declaration heading record context =>
    constructor
    · rintro ⟨other, hpush, hcontext, hkind, hname, hexported⟩
      obtain ⟨rfl, hrecord, rfl⟩ := Push.declaration.inj hpush
      subst hrecord
      exact ⟨record, rfl, hcontext, hkind, hname, hexported⟩
    · rintro ⟨other, hpush, hcontext, hkind, hname, hexported⟩
      obtain ⟨rfl, rfl, rfl⟩ := Push.declaration.inj hpush
      exact ⟨_, rfl, hcontext, hkind, hname, hexported⟩
  | _ => exact Iff.rfl

theorem Push.isDeclaration_bare (p : Push) : p.bare.isDeclaration = p.isDeclaration := by
  cases p <;> rfl

/-- The declarations that are seen without nodes. -/
theorem Event.declared_bare (events : List Event) :
    Event.declared (events.filterMap Event.bare) = (Event.declared events).map Push.bare := by
  unfold Event.declared
  rw [Event.pushes_bare, List.filter_map]
  exact congrArg _ (List.filter_congr fun p _ => p.isDeclaration_bare)

namespace Walk

variable {α β : Type} {xs ys : List DeclarationSite}

/-- If the step succeeds, the declarations that it pushes are those of the sites. -/
def Records (v : Walk α) (sites : List DeclarationSite) : Prop :=
  ∀ drawn a, (v drawn).result = .ok a →
    List.Forall₂ DeclarationSite.RecordedBy sites (Event.declared (v drawn).events)

theorem records_pure (a : α) : (pure a : Walk α).Records [] :=
  fun _ _ _ => .nil

theorem records_fail (fault : Fault) : (fail fault : Walk α).Records xs :=
  fun _ _ h => by cases h

/-- **Steps in a row** record the sites of both. -/
theorem Records.bind {v : Walk α} {next : α → Walk β} (h : v.Records xs)
    (hnext : ∀ a, (next a).Records ys) : (v >>= next).Records (xs ++ ys) := by
  intro drawn b hb
  -- if the first step fails, so does the whole, and of a failure nothing is said
  cases hv : (v drawn).result with
  | error fault =>
    rw [bind_apply_error hv] at hb
    cases hb
  | ok a =>
    rw [bind_apply_ok hv] at hb ⊢
    rw [Event.declared_append]
    exact List.rel_append (h drawn a hv) (hnext a _ b hb)

/-- A step that pushes no declaration, however it ends. -/
def DeclaresNothing (v : Walk α) : Prop :=
  v.Ensures (fun e => ∀ p, e = .pushed p → p.isDeclaration = false) (fun _ => True)
    Walker.AnyFault

theorem DeclaresNothing.declared_eq_nil {v : Walk α} (h : v.DeclaresNothing) (drawn : Nat) :
    Event.declared (v drawn).events = [] := by
  unfold Event.declared
  refine List.filter_eq_nil_iff.mpr fun p hp => ?_
  obtain ⟨e, he, hpush⟩ := List.mem_filterMap.mp hp
  have hevent : e = .pushed p := by
    cases e with
    | pushed q => exact congrArg _ (Option.some.inj hpush)
    | _ => cases hpush
  rw [(h drawn).1 e he p hevent]
  exact Bool.false_ne_true

theorem DeclaresNothing.not_mem_pushes {v : Walk α} (h : v.DeclaresNothing) (drawn : Nat)
    {heading : Heading} {record : Declaration} {under : Json} :
    .declaration heading record under ∉ Event.pushes (v drawn).events := by
  intro hmem
  have hdeclared : .declaration heading record under ∈ Event.declared (v drawn).events :=
    List.mem_filter.mpr ⟨hmem, rfl⟩
  rw [h.declared_eq_nil drawn] at hdeclared
  cases hdeclared

theorem DeclaresNothing.records {v : Walk α} (h : v.DeclaresNothing) : v.Records [] := by
  intro drawn a _
  rw [h.declared_eq_nil drawn]
  exact .nil

/-- What is alike to a step records the same. -/
theorem Alike.records {R : α → β → Prop} {v : Walk α} {w : Walk β}
    (h : v.Alike Event.bare R w) (hw : w.Records xs) : v.Records xs := by
  intro drawn a ha
  obtain ⟨hevents, -, hresult⟩ := h drawn
  rw [ha] at hresult
  cases hb : (w drawn).result with
  | error fault =>
    rw [hb] at hresult
    exact hresult.elim
  | ok b =>
    -- records are compared without their nodes, which no site asks for
    have hbare : (Event.declared (v drawn).events).map Push.bare =
        (Event.declared (w drawn).events).map Push.bare := by
      rw [← Event.declared_bare, hevents, Event.declared_bare]
    have hsites : List.Forall₂ DeclarationSite.RecordedBy xs
        ((Event.declared (w drawn).events).map Push.bare) := by
      rw [List.forall₂_map_right_iff]
      exact (hw drawn b hb).imp fun site p hp => (site.recordedBy_bare p).mpr hp
    rw [← hbare, List.forall₂_map_right_iff] at hsites
    exact hsites.imp fun site p hp => (site.recordedBy_bare p).mp hp

end Walk

/-! ## Declarations -/

/-- A declaration with a name is recorded. -/
theorem View.declare_records (v : View) (heading : Heading) (context : String) {name : Name}
    (hname : v.resolved = some name) :
    (v.declare heading context).Records [⟨heading, name.val, context, v.exported⟩] := by
  unfold View.declare
  rw [hname, NameView.resolve_some, pure_bind]
  dsimp only
  have hpush : (Walk.push (.declaration heading ⟨context, heading.kind, name, v.exported, []⟩
      (.str context))).Records [⟨heading, name.val, context, v.exported⟩] := by
    intro drawn a _
    exact .cons ⟨_, rfl, rfl, rfl, rfl, rfl⟩ .nil
  split
  · have hemit : (Walk.emit (.exported ⟨context, heading.kind, name, v.exported, []⟩
        (.str context))).Records [] := fun _ _ _ => .nil
    exact hemit.bind fun _ => hpush
  · exact hpush

/-! ## Kinds -/

/-- The standard table calls kinds by their names. -/
theorem KindTable.find?_standard (kind : SyntaxKind) :
    KindTable.standard.find? kind.code = some kind.name := by
  unfold KindTable.find? KindTable.standard
  rw [List.find?_map, Option.map_map]
  cases hfind : SyntaxKind.all.find? ((fun e : Int × String => decide (e.1 = kind.code)) ∘
      fun k => ((k.code : Int), k.name)) with
  | none =>
    have hother := List.find?_eq_none.mp hfind kind (SyntaxKind.mem_all kind)
    exact absurd (decide_eq_true rfl) hother
  | some other =>
    have hcode : (other.code : Int) = kind.code := by simpa using List.find?_some hfind
    rw [SyntaxKind.code_injective (Int.ofNat.inj hcode)]
    rfl

/-- The kind of a node under the standard table. -/
theorem KindTable.kindName_standard {fields : Fields} {kind : SyntaxKind}
    (h : lookup "kind" fields = .int kind.code) :
    standard.kindName (.obj fields) = .ok (some kind.name) := by
  have hname : standard.kindName (.obj fields) =
      .ok (some ((standard.find? kind.code).getD unknownName)) := by
    rw [kindName, h]
    rfl
  rw [hname, find?_standard]
  rfl

theorem View.kindOf_standard {fields : Fields} {kind : SyntaxKind}
    (h : lookup "kind" fields = .int kind.code) :
    View.kindOf KindTable.standard (.obj fields) = some kind.name := by
  unfold View.kindOf
  rw [KindTable.kindName_standard h]

/-- What is done with a statement goes by its kind. -/
theorem View.step_standard {fields : Fields} {kind : SyntaxKind}
    (h : lookup "kind" fields = .int kind.code) :
    (View.of .standard fields).kind.bind StatementKind.ofName? = StatementKind.ofName? kind.name :=
  congrArg (Option.bind · StatementKind.ofName?) (View.kindOf_standard h)

/-- What is done with the statements of a kind is what the table says. -/
theorem StatementKind.mem_table {kind : SyntaxKind} {step : StatementKind}
    (h : ofName? kind.name = some step) : (kind, step) ∈ table := by
  -- no two kinds share a name
  have hnames : ∀ e ∈ table, ∀ k ∈ SyntaxKind.all, e.1.name = k.name → e.1 = k := by
    decide +kernel
  unfold ofName? at h
  obtain ⟨entry, hfind, rfl⟩ := Option.map_eq_some_iff.mp h
  have hmem := List.mem_of_find?_eq_some hfind
  have hname : entry.1.name = kind.name := by simpa using List.find?_some hfind
  rw [← hnames entry hmem kind (SyntaxKind.mem_all kind) hname]
  exact hmem

/-- The kinds of node that are recorded as declarations, and of those that hold some. -/
def SyntaxKind.declaring : List SyntaxKind :=
  [.functionDeclaration, .interfaceDeclaration, .typeAliasDeclaration, .classDeclaration,
   .moduleDeclaration]

/-! ## Statements -/

/-- What is named by a text is resolved to it. -/
theorem Node.resolvedName?_of_ownName? {fields : Fields} {name : Name}
    (h : ownName? (lookup "name" fields) = some name) : resolvedName? fields = some name := by
  unfold ownName? at h
  obtain ⟨text, htext, hname⟩ := Option.bind_eq_some_iff.mp h
  unfold resolvedName? declaredName?
  rw [htext]
  exact hname

namespace Walker

variable {w : Walker} {fields : Fields} {kind : SyntaxKind}

/-- A collector of anything but declarations pushes no declaration. -/
theorem collect_declaresNothing (collector : Collector) (node : Json) (context : String)
    (h : ∀ heading, collector ≠ .declaration heading) :
    (w.collect collector node (.str context)).DeclaresNothing := by
  refine collector_ensures collector node (.str context) (fun _ _ h => by cases h)
    (fun _ _ _ h => by cases h) (fun heading _ hcollector => absurd hcollector (h heading)) ?_
  rintro p - hother _ ⟨⟩
  cases p with
  | declaration heading record key => exact absurd rfl (hother heading record key)
  | _ => rfl

/-- A statement of a kind that declares nothing pushes no declaration. -/
theorem statement_declaresNothing (hkinds : w.kinds = .standard)
    (hkind : lookup "kind" fields = .int kind.code) (hnothing : kind ∉ SyntaxKind.declaring)
    (context : String) : (w.statement (.str context) (.obj fields)).DeclaresNothing := by
  rw [statement_obj, hkinds, KindTable.kindName_standard hkind, Walk.ofExcept_ok, pure_bind]
  unfold dispatch
  cases hstep : StatementKind.ofName? kind.name with
  | none =>
    rw [Option.bind_some, hstep]
    exact Walk.ensures_emit fun _ h => by cases h
  | some step =>
    rw [Option.bind_some, hstep]
    -- whatever has a step that records declarations is among the declaring kinds
    have htable : ∀ e ∈ StatementKind.table, e.1 ∉ SyntaxKind.declaring →
        e.2 ≠ .module ∧ ∀ heading, e.2 ≠ .recorded (.declaration heading) := by
      intro e he hnot
      refine ⟨?_, fun heading => ?_⟩
      · revert e
        decide
      · revert e
        cases heading <;> decide
    obtain ⟨hmodule, hdeclaration⟩ := htable _ (StatementKind.mem_table hstep) hnothing
    cases step with
    | module => exact absurd rfl hmodule
    | recorded collector =>
      exact collect_declaresNothing collector _ context fun heading hcollector =>
        hdeclaration heading (congrArg _ hcollector)

/-- **A declaration with a name is recorded** under its name. -/
theorem statement_records_declaration (hkinds : w.kinds = .standard)
    (h : (Json.obj fields).EachObject Tree.Conforms) {heading : Heading}
    (hkind : lookup "kind" fields = .int heading.syntaxKind.code) {name : Name}
    (hname : Node.ownName? (lookup "name" fields) = some name) (context : String) :
    (w.statement (.str context) (.obj fields)).Records
      [⟨heading, name.val, context, (View.of w.kinds fields).exported⟩] := by
  refine (statement_view h context).records ?_
  rw [hkinds]
  unfold View.statement
  rw [View.step_standard hkind, StatementKind.ofName?_heading]
  exact View.declare_records _ heading context (Node.resolvedName?_of_ownName? hname)

/-- **A module records what is recorded in its body,** under the context of the body. -/
theorem statement_records_module (hkinds : w.kinds = .standard)
    (h : (Json.obj fields).EachObject Tree.Conforms)
    (hkind : lookup "kind" fields = .int SyntaxKind.moduleDeclaration.code)
    {sites : List DeclarationSite}
    (hbody : ∀ name, Node.ownName? (lookup "name" fields) = some name →
      (w.innerBody fields ((View.of w.kinds fields).innerContext w name)).Records sites)
    (context : String) : (w.statement (.str context) (.obj fields)).Records sites := by
  refine (statement_view h context).records ?_
  rw [hkinds] at hbody ⊢
  unfold View.statement
  rw [View.step_standard hkind]
  show ((View.of .standard fields).enter w >>= w.innerBody fields).Records sites
  unfold View.enter
  cases hname : (View.of .standard fields).name with
  | none => exact Walk.records_fail _
  | some name =>
    have hrest := hbody name hname
    dsimp only
    split
    · exact fun drawn a => hrest drawn a
    · exact hrest

end Walker

end DeclCatalogue
