import DeclCatalogue.Proofs.Walk.Ensures
import DeclCatalogue.Proofs.Walk.Tokens
import DeclCatalogue.Proofs.Walk.View

/-!
# Walks that end for want of a name

A collector asks for fields of values, goes through lists and checks the records it makes, and all
of this can go wrong. In a tree that keeps to the schema it does not: the one thing that can be
missing is a name, and the one thing that can be refused is a placeholder, if its prefix does not
stand for characters. `statement_safe` says so for every such tree under every table of kinds, also
one that takes nodes for what they are not.

What is walked by its view has nothing left that could go wrong. What remains to be seen is the body
of a module: it has a list of statements, or it is a module itself and is walked as a statement,
because its kind is called what the kind of the module around it is called.
-/

namespace DeclCatalogue

open Json (lookup)

/-- A fault for want of a usable name. -/
def Fault.IsNameless (fault : Fault) : Prop :=
  ∃ node, fault = .unresolvableName node

/-- A fault whose outline is that of a missing name is one for want of a name. -/
theorem Fault.isNameless_of_outline {fault other : Fault} (h : fault.outline = other.outline)
    (hother : other.IsNameless) : fault.IsNameless := by
  obtain ⟨node, rfl⟩ := hother
  cases fault with
  | unresolvableName node => exact ⟨node, rfl⟩
  | _ => cases h

/-- Of any other fault the outline is the fault itself. -/
theorem Fault.eq_of_outline {fault other : Fault} (h : fault.outline = other.outline)
    (hother : ¬ other.IsNameless) : fault = other := by
  have hself : ∀ f : Fault, ¬ f.IsNameless → f.outline = f := by
    intro f hf
    cases f with
    | unresolvableName node => exact absurd ⟨node, rfl⟩ hf
    | _ => rfl
  have hfault : ¬ fault.IsNameless := fun hn => hother (isNameless_of_outline h.symm hn)
  rw [← hself fault hfault, h, hself other hother]

/-- The refusal of a placeholder. -/
def Fault.placeholderRefused : Fault :=
  .invalid ⟨ImportRecord.subject, [⟨["what"], .notUnicode⟩]⟩

/-- The faults of a walk of a tree that keeps to the schema. -/
inductive Fault.IsExpected (w : Walker) : Fault → Prop where
  | nameless (node : Json) : IsExpected w (.unresolvableName node)
  | placeholder (hbroken : Text.isWellFormed w.placeholderPrefix = false) :
      IsExpected w placeholderRefused

/-- Faults of one outline are both expected or both not. -/
theorem Fault.isExpected_of_outline {w : Walker} {fault other : Fault}
    (h : fault.outline = other.outline) (hother : other.IsExpected w) : fault.IsExpected w := by
  cases hother with
  | nameless node =>
    obtain ⟨node, rfl⟩ := isNameless_of_outline h ⟨node, rfl⟩
    exact .nameless node
  | placeholder hbroken =>
    rw [eq_of_outline h fun ⟨_, h⟩ => by cases h]
    exact .placeholder hbroken

namespace Walk

variable {α β : Type} {w : Walker}

/-- A step that fails, if it does, in a way that is expected. -/
abbrev Safe (w : Walker) (u : Walk α) : Prop :=
  u.Ensures (fun _ => True) (fun _ => True) (Fault.IsExpected w)

/-- What is alike to a safe step is safe. -/
theorem Alike.safe {see : Event → Option Event} {R : α → β → Prop} {u : Walk α} {v : Walk β}
    (h : u.Alike see R v) (hv : v.Safe w) : u.Safe w := by
  intro drawn
  refine ⟨fun _ _ => trivial, fun _ _ => trivial, fun fault hfault => ?_⟩
  obtain ⟨-, -, hresult⟩ := h drawn
  rw [hfault] at hresult
  cases hother : (v drawn).result with
  | ok b =>
    rw [hother] at hresult
    exact hresult.elim
  | error other =>
    rw [hother] at hresult
    exact Fault.isExpected_of_outline hresult ((hv drawn).2.2 other hother)

/-- A record whose context can be a key is pushed. -/
theorem push_safe {p : Push} (h : p.isUsable = true) : (push p).Safe w := by
  unfold push
  rw [if_pos h]
  exact ensures_emit trivial

end Walk

/-! ## By the view -/

theorem NameView.resolve_safe {w : Walker} (v : NameView) : v.resolve.Safe w := by
  unfold NameView.resolve
  split
  · exact Walk.ensures_fail (.nameless _)
  · exact Walk.ensures_pure trivial

/-- A placeholder is refused if its prefix does not stand for characters, and for nothing else. -/
theorem Walker.pushPlaceholder_safe (w : Walker) (count : Nat) (source : Name) :
    (pushImport .default (.str (w.placeholder count)) (.str source)).Safe w := by
  have hsource : Checked.name (.str source) = .valid source := name_check source
  unfold pushImport ImportRecord.make
  rw [name_placeholder, hsource]
  split
  next => exact Walk.push_safe rfl
  next hbroken => exact Walk.ensures_fail (.placeholder (Bool.not_eq_true _ ▸ hbroken))

namespace View

variable (v : View) {w : Walker}

theorem declare_safe (heading : Heading) (context : String) :
    (v.declare heading context).Safe w := by
  unfold declare
  refine (NameView.resolve_safe _).bind fun name _ => ?_
  dsimp only
  split
  · exact (Walk.ensures_emit trivial).bind fun _ _ => Walk.push_safe rfl
  · exact Walk.push_safe rfl

theorem declareVariables_safe (rootContext context : String) :
    (v.declareVariables rootContext context).Safe w :=
  Walk.ensures_forEach fun _ _ => Walk.push_safe rfl

theorem export_safe (context : String) : (v.export context).Safe w :=
  (NameView.resolve_safe _).bind fun _ _ => Walk.push_safe rfl

theorem importBindings_safe (source : Name) (bindings : BindingsView) :
    (importBindings source bindings).Safe w := by
  unfold importBindings
  split
  · exact Walk.push_safe rfl
  · exact Walk.ensures_forEach fun element _ =>
      element.resolve_safe.bind fun _ _ => Walk.push_safe rfl

theorem importClause_safe (source : Name) (clause : ClauseView) :
    (importClause source clause).Safe w := by
  obtain ⟨name, bindings⟩ := clause
  -- without a name a clause is its bindings
  have hbindings : (importClause source ⟨none, bindings⟩).Safe w := by
    cases bindings with
    | some bindings => exact importBindings_safe source bindings
    | none => exact Walk.ensures_pure trivial
  cases name with
  | some name => exact Walk.Ensures.bind (Walk.push_safe rfl) fun _ _ => hbindings
  | none => exact hbindings

theorem import_safe : (v.import w).Safe w := by
  unfold View.import
  refine (NameView.resolve_safe _).bind fun source _ => ?_
  split
  · exact Walk.ensures_token.bind fun count _ => w.pushPlaceholder_safe count source
  · exact importClause_safe source _

theorem collect_safe (collector : Collector) (context : String) :
    (v.collect w collector context).Safe w := by
  cases collector with
  | declaration heading => exact v.declare_safe heading context
  | variableStatement => exact v.declareVariables_safe w.rootContext context
  | exportAssignment => exact v.export_safe context
  | importDeclaration => exact v.import_safe

theorem enter_safe : (v.enter w).Safe w := by
  unfold enter
  split
  · exact Walk.ensures_fail (.nameless _)
  · split
    · exact (Walk.push_safe rfl).bind fun _ _ => Walk.ensures_pure trivial
    · exact Walk.ensures_pure trivial

/-- A statement is safe if the body of a module is. -/
theorem statement_safe {body : String → Walk Unit} (context : String)
    (hbody : v.kind.bind StatementKind.ofName? = some .module →
      ∀ inner, (body inner).Safe w) : (v.statement w body context).Safe w := by
  unfold statement
  split
  · exact Walk.ensures_pure trivial
  · exact v.collect_safe _ context
  next hmodule => exact v.enter_safe.bind fun inner _ => hbody hmodule inner

end View

/-! ## Trees -/

namespace Walker

variable {w : Walker}

/-- The kinds of node with a list of statements. -/
def listKinds : List SyntaxKind := [.block, .moduleBlock, .sourceFile]

/-- The statements of a node that has a list of them. -/
theorem statements_of_listKinds {fields : Fields} (h : (Json.obj fields).EachObject Tree.Conforms)
    (hkind : Tree.IsNode listKinds (.obj fields)) :
    ∃ vs, lookup "statements" fields = .arr vs := by
  obtain ⟨_, heq, kind, hmem, hlookup⟩ := hkind
  obtain rfl := Json.obj.inj heq
  obtain ⟨⟨kind', hfields⟩, -⟩ := Json.eachObject_obj.mp h
  obtain rfl := hfields.kind_unique hlookup
  have hkey : "statements" ∈ Tree.requiredKeys kind' := by
    simp only [listKinds, List.mem_cons, List.not_mem_nil, or_false] at hmem
    rcases hmem with rfl | rfl | rfl <;> decide
  have hform : Tree.fieldForm kind' "statements" = some (.nodes SyntaxKind.all) := rfl
  obtain ⟨vs, hvs, -⟩ := hfields.lookup_required hform hkey
  exact ⟨vs, hvs⟩

/-- A body is a node with a list of statements, or a module inside a module. -/
theorem body_cases {kind : SyntaxKind} {fields : Fields} (h : Tree.ConformsTo kind fields) :
    lookup "body" fields = .null ∨ Tree.IsNode listKinds (lookup "body" fields) ∨
      kind = .moduleDeclaration ∧ Tree.IsNode [.moduleDeclaration] (lookup "body" fields) := by
  have hform : Tree.fieldForm kind "body" = some (.node (Tree.bodyKinds kind)) := rfl
  rcases h.lookup hform with hnull | ⟨body, hbody, k, hk, hlookup⟩
  · exact .inl hnull
  · right
    rw [hbody]
    unfold Tree.bodyKinds at hk
    split at hk
    · simp only [List.mem_cons, List.not_mem_nil, or_false] at hk
      rcases hk with rfl | rfl
      · exact .inl ⟨body, rfl, _, by decide, hlookup⟩
      · exact .inr ⟨rfl, body, rfl, _, List.mem_singleton.mpr rfl, hlookup⟩
    · rw [List.mem_singleton.mp hk] at hlookup
      exact .inl ⟨body, rfl, .block, by decide, hlookup⟩

/-- The body of a node that is walked into, given that the body is safe as a statement and as a
tree. -/
theorem innerBody_safe {fields : Fields} (h : (Json.obj fields).EachObject Tree.Conforms)
    (hmodule : View.kindOf w.kinds (.obj fields) = some SyntaxKind.moduleDeclaration.name)
    (hstatement : ∀ context : String,
      (w.statement (.str context) (lookup "body" fields)).Safe w)
    (htree : Tree.IsNode listKinds (lookup "body" fields) →
      ∀ context : String, (w.tree (.str context) (lookup "body" fields)).Safe w)
    (context : String) : (w.innerBody fields context).Safe w := by
  unfold innerBody
  split
  next htruthy =>
    obtain ⟨⟨kind, hfields⟩, -⟩ := Json.eachObject_obj.mp h
    rw [bodyIn_eq w _ fields htruthy]
    have hbodies := h.lookup "body"
    -- a body that is a module is never walked as a tree: its kind is the one that was walked into
    rcases body_cases hfields with hnull | hlist | ⟨rfl, body, hbody, k, hk, hlookup⟩
    · rw [hnull] at htruthy
      cases htruthy
    · have ⟨body, hbody, _⟩ := hlist
      have hkind : w.kinds.kindName (.obj body) = .ok (View.kindOf w.kinds (.obj body)) :=
        Node.kindName_view (hbody ▸ hbodies)
      rw [← hbody] at hkind
      rw [hkind, Walk.ofExcept_ok, pure_bind]
      split
      · exact hstatement context
      · exact htree hlist context
    · -- the kind of the body is called what the kind of the module is called
      rw [List.mem_singleton.mp hk] at hlookup
      have hkind : w.kinds.kindName (lookup "body" fields) =
          .ok (some SyntaxKind.moduleDeclaration.name) := by
        rw [← hmodule, ← Node.kindName_view h, hbody]
        rw [KindTable.kindName, KindTable.kindName, hlookup, hfields.kind_eq]
      rw [hkind, Walk.ofExcept_ok, pure_bind, if_pos rfl]
      exact hstatement context
  next => exact Walk.ensures_pure trivial

/-- A value as a statement, as a tree with a list of statements, and what is listed in it. -/
private theorem walk_safe (w : Walker) (v : Json) : v.EachObject Tree.Conforms →
    (∀ context : String, (w.statement (.str context) v).Safe w) ∧
    (Tree.IsNode listKinds v → ∀ context : String, (w.tree (.str context) v).Safe w) ∧
    ∀ vs, v = .arr vs → ∀ u ∈ vs, ∀ context : String,
      (w.statement (.str context) u).Safe w := by
  -- both readings of a value are needed at once: a body is walked as a statement or as a tree
  induction v using Json.induct_lookup with
  | arr vs ih =>
    intro h
    refine ⟨fun _ => Walk.ensures_emit trivial, fun ⟨_, h, _⟩ => (by cases h), ?_⟩
    intro us hus u hu context
    obtain rfl := Json.arr.inj hus
    exact (ih u hu (Json.eachObject_arr.mp h u hu)).1 context
  | obj fields ih =>
    intro h
    have hbody := ih "body" (h.lookup "body")
    have hstatements := ih "statements" (h.lookup "statements")
    refine ⟨fun context => ?_, fun hlist context => ?_, fun _ h => by cases h⟩
    · refine (statement_view h context).safe ?_
      refine (View.of w.kinds fields).statement_safe context fun hmodule => ?_
      obtain ⟨name, hname, hstep⟩ := Option.bind_eq_some_iff.mp hmodule
      have hkind : View.kindOf w.kinds (.obj fields) = some name := hname
      rw [StatementKind.ofName?_eq_module hstep] at hkind
      exact innerBody_safe h hkind hbody.1 hbody.2.1
    · obtain ⟨vs, hvs⟩ := statements_of_listKinds h hlist
      rw [tree_obj, hvs]
      show (w.statements _ vs).Safe w
      rw [statements_eq_forEach]
      exact Walk.ensures_forEach fun u hu => hstatements.2.2 vs hvs u hu context
  | _ =>
    exact fun _ => ⟨fun _ => Walk.ensures_emit trivial, fun ⟨_, h, _⟩ => (by cases h),
      fun _ h => by cases h⟩

/-- **Walking a statement that keeps to the schema is safe,** whatever the table calls the kinds of
its nodes. -/
theorem statement_safe {v : Json} (h : v.EachObject Tree.Conforms) (context : String) :
    (w.statement (.str context) v).Safe w :=
  (walk_safe w v h).1 context

end Walker

end DeclCatalogue
