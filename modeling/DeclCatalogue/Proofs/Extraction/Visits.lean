import DeclCatalogue.Proofs.Extraction.Namespaces

/-!
# An extraction as a row of visits

`Walker.visitsOf` lays a concrete tree out as what a walk comes to, in order: the modules that are
entered, and the statements, each under its context and with the modifiers that are handed down to
it. It goes by the placement of a node, and `visitsOf_eq` has one line for each placement.

Reading a node and walking the statements that it is read as is paying its visits one after the
other: `follows_readTree`, by one induction over the tree that goes through exports, ambient
declarations, expressions and modules in any order. With it, `extractSource_course` says what an
extraction does that is not over before the walk starts, and `Reaches` that it gets to a visit.
What is said of a single statement, wherever it stands, is said of its visit.
-/

namespace DeclCatalogue

open Json (lookup)
open DeclCatalogue.Tree (flagged Yields Built)

namespace Cst

/-! ## Trees without notes -/

/-- A tree without its notes. -/
def plain {α : Type} (c : Cst α) : SourceTree :=
  annotate (fun _ _ => ()) c

/-- Taking away the notes that were put on a tree gives the tree back. -/
theorem plain_annotate {β : Type} (rule : CstHead → List (Cst β) → β) (c : SourceTree) :
    (annotate rule c).plain = c := by
  induction c using Cst.induct with
  | node head note cs ih =>
    have hchildren : (cs.map (annotate rule)).map plain = cs := by
      rw [List.map_map]
      exact (List.map_congr_left ih).trans (List.map_id cs)
    unfold plain at hchildren ⊢
    rw [annotate_node, annotate_node, hchildren]

variable {α : Type} [DecidableEq α]

mutual
/-- Decides whether two trees are the same. -/
def decEq : (c d : Cst α) → Decidable (c = d)
  | .node head note cs, .node head' note' ds =>
    if h : head = head' ∧ note = note' then
      match decEqAll cs ds with
      | isTrue hs => isTrue (h.1 ▸ h.2 ▸ hs ▸ rfl)
      | isFalse hs => isFalse (by simp [hs])
    else isFalse fun same => h ⟨congrArg Cst.head same, congrArg Cst.note same⟩

/-- Decides whether two rows of trees are the same. -/
def decEqAll : (cs ds : List (Cst α)) → Decidable (cs = ds)
  | [], [] => isTrue rfl
  | [], _ :: _ | _ :: _, [] => isFalse (by simp)
  | c :: cs, d :: ds =>
    match decEq c d, decEqAll cs ds with
    | isTrue h, isTrue hs => isTrue (h ▸ hs ▸ rfl)
    | isFalse h, _ => isFalse (by simp [h])
    | _, isFalse hs => isFalse (by simp [hs])
end

instance : DecidableEq (Cst α) := decEq

end Cst

/-- What a walk comes to: a module that is entered, or a statement under a context, with the
modifiers that are handed down to it. -/
inductive Visit where
  | enter (level : ModuleLevel)
  | statement (context : String) (inherited : List ModifierKind) (node : SourceTree)
  deriving DecidableEq

/-- A visit of a statement comes to a node that is one by itself. -/
def Visit.AtItself (source : Source) : Visit → Prop
  | .enter _ => True
  | .statement _ _ c => Placement.of source c.head c.children = .itself

namespace Walker

/-! ## Laying out a tree -/

/-- The visits of a node under a context, with the modifiers that are handed down to it. -/
abbrev Layout := String → List ModifierKind → List Visit

/-- The visits of a node from those of its children. -/
def layout (w : Walker) (source : Source) (head : CstHead) (children : List (Cst Layout)) :
    Layout :=
  fun context inherited =>
    match Placement.of source head children with
    | .itself => [.statement context inherited (.node head () (children.map Cst.plain))]
    | .around modifiers inner => inner.flatMap fun c => c.note context (inherited ++ modifiers)
    | .opening levels body =>
      levels.map .enter ++ (Cst.named (Cst.childrenOf body)).flatMap fun c =>
        c.note (w.contextIn context levels) []

/-- The visits of a node, in order. -/
def visitsOf (w : Walker) (source : Source) (context : String) (inherited : List ModifierKind)
    (c : SourceTree) : List Visit :=
  (Cst.annotate (w.layout source) c).note context inherited

/-- The visits of the statements in a body, if there is a body. -/
def visitsIn (w : Walker) (source : Source) (context : String) (body : Option SourceTree) :
    List Visit :=
  (Cst.named (Cst.childrenOf body)).flatMap (w.visitsOf source context [])

/-- **The visits of a node by its placement.** -/
theorem visitsOf_eq (w : Walker) (source : Source) (context : String)
    (inherited : List ModifierKind) (c : SourceTree) :
    w.visitsOf source context inherited c =
      match Placement.of source c.head c.children with
      | .itself => [.statement context inherited c]
      | .around modifiers inner =>
        inner.flatMap (w.visitsOf source context (inherited ++ modifiers))
      | .opening levels body =>
        levels.map .enter ++ w.visitsIn source (w.contextIn context levels) body := by
  have hheads : ∀ d : SourceTree, (Cst.annotate (w.layout source) d).head = d.head :=
    Cst.head_annotate _
  have hnote : w.visitsOf source context inherited c =
      match Placement.of source c.head (c.children.map (Cst.annotate (w.layout source))) with
      | .itself => [.statement context inherited
          (.node c.head () ((c.children.map (Cst.annotate (w.layout source))).map Cst.plain))]
      | .around modifiers inner => inner.flatMap fun d => d.note context (inherited ++ modifiers)
      | .opening levels body =>
        levels.map .enter ++ (Cst.named (Cst.childrenOf body)).flatMap fun d =>
          d.note (w.contextIn context levels) [] := by
    unfold visitsOf
    rw [Cst.note_annotate]
    rfl
  rw [hnote, Placement.of_map hheads]
  cases Placement.of source c.head c.children with
  | itself =>
    have hplain : (c.children.map (Cst.annotate (w.layout source))).map Cst.plain = c.children := by
      rw [List.map_map]
      exact (List.map_congr_left fun d _ => Cst.plain_annotate _ d).trans (List.map_id _)
    show [Visit.statement context inherited (.node c.head () _)] = _
    rw [hplain]
    cases c
    rfl
  | around modifiers inner => exact List.flatMap_map ..
  | opening levels body =>
    show levels.map Visit.enter ++ (Cst.named (Cst.childrenOf (body.map _))).flatMap _ = _
    unfold visitsIn
    cases body with
    | none => rfl
    | some block =>
      rw [Option.map_some, Cst.childrenOf, Cst.children_annotate, Cst.named_annotate,
        List.flatMap_map]
      rfl

/-- All visits of statements come to such nodes. -/
theorem visitsOf_atItself (w : Walker) (source : Source) (tree : SourceTree) :
    tree.EachNode fun c => ∀ context inherited,
      ∀ v ∈ w.visitsOf source context inherited c, v.AtItself source := by
  induction tree using Cst.induct with
  | node head note cs ih =>
    refine Cst.eachNode_node.mpr ⟨fun context inherited v hv => ?_, ih⟩
    rw [visitsOf_eq] at hv
    cases hplace : Placement.of source (Cst.node head note cs).head
        (Cst.node head note cs).children with
    | itself =>
      simp only [hplace] at hv
      rw [List.mem_singleton.mp hv]
      exact hplace
    | around modifiers inner =>
      simp only [hplace] at hv
      obtain ⟨c, hc, hvc⟩ := List.mem_flatMap.mp hv
      exact (ih c (Placement.mem_of_around hplace c hc)).self _ _ v hvc
    | opening levels body =>
      simp only [hplace] at hv
      rcases List.mem_append.mp hv with henter | hbody
      · obtain ⟨level, -, rfl⟩ := List.mem_map.mp henter
        trivial
      · cases body with
        | none => cases hbody
        | some block =>
          obtain ⟨c, hc, hvc⟩ := List.mem_flatMap.mp hbody
          have hblock := ih block (Placement.mem_of_opening hplace block rfl)
          exact (hblock.child (Cst.mem_of_mem_named hc)).self _ _ v hvc

/-! ## Paying visits -/

/-- A visit: a module is entered, and the statements that a node is read as are walked. -/
def visit (w : Walker) (source : Source) : Visit → Walk Unit
  | .enter level => w.openLevel level
  | .statement context inherited c => do
    let us ← Walk.ofExcept
      (((Tree.readTree source c).note.statement inherited).result.mapError fun _ => .undecodable)
    w.statements (.str context) us

/-- Visits one after the other. -/
def course (w : Walker) (source : Source) (visits : List Visit) : Walk Unit :=
  Walk.forEach (w.visit source) visits

theorem course_append (w : Walker) (source : Source) (visits more : List Visit) :
    w.course source (visits ++ more) = (do
      w.course source visits
      w.course source more) :=
  Walk.forEach_append ..

theorem course_singleton (w : Walker) (source : Source) (visit : Visit) :
    w.course source [visit] = w.visit source visit := by
  unfold course
  rw [Walk.forEach, Walk.forEach]
  exact bind_pure_unit

/-- To visit modules is to enter them. -/
theorem course_levels (w : Walker) (source : Source) (levels : List ModuleLevel) :
    w.course source (levels.map .enter) = w.openLevels levels := by
  induction levels with
  | nil => rfl
  | cons level rest ih => exact congrArg (w.openLevel level >>= fun _ => ·) ih

/-- What is pushed along a course is pushed by a visit, and those in front of it are paid. -/
theorem exists_visit_of_mem_pushes {w : Walker} {source : Source} {visits : List Visit} {p : Push}
    {drawn : Nat} (h : p ∈ Event.pushes (w.course source visits drawn).events) :
    ∃ before visit after, visits = before ++ visit :: after ∧
      (w.course source before drawn).result = .ok () ∧
      p ∈ Event.pushes (w.visit source visit (w.course source before drawn).drawn).events := by
  induction visits generalizing drawn with
  | nil => cases h
  | cons first rest ih =>
    have hcourse : ∀ visits, w.course source (first :: visits) = (do
        w.visit source first
        w.course source visits) := fun _ => rfl
    rw [hcourse] at h
    cases hfirst : (w.visit source first drawn).result with
    | error fault =>
      rw [Walk.bind_apply_error hfirst] at h
      exact ⟨[], first, rest, rfl, rfl, h⟩
    | ok =>
      rw [Walk.bind_apply_ok hfirst, Event.pushes_append] at h
      rcases List.mem_append.mp h with hhere | hlater
      · exact ⟨[], first, rest, rfl, rfl, hhere⟩
      · obtain ⟨before, visit, after, rfl, hbefore, hpushed⟩ := ih hlater
        refine ⟨first :: before, visit, after, rfl, ?_, ?_⟩
        · rw [hcourse, Walk.bind_apply_ok hfirst]
          exact hbefore
        · rw [hcourse, Walk.bind_apply_ok hfirst]
          exact hpushed

/-- A node that can be read as statements is visited by walking them. -/
theorem visit_statement {w : Walker} {source : Source} {c : SourceTree}
    {inherited : List ModifierKind} {us : List Json}
    (hread : ((Tree.readTree source c).note.statement inherited).result = .ok us)
    (context : String) :
    w.visit source (.statement context inherited c) = w.statements (.str context) us := by
  show (Walk.ofExcept (((Tree.readTree source c).note.statement inherited).result.mapError _) >>=
    fun us => w.statements (.str context) us) = _
  rw [hread]
  rfl

/-- A node that is read as a single node is visited by what is read off that node. -/
theorem visit_view {w : Walker} {source : Source} {c : SourceTree} {inherited : List ModifierKind}
    {fields : Fields}
    (hread : ((Tree.readTree source c).note.statement inherited).result = .ok [.obj fields])
    (context : String) :
    (w.visit source (.statement context inherited c)).Alike Event.bare Eq
      ((View.of w.kinds fields).statement w (w.innerBody fields) context) := by
  have hconforms := (Tree.conforming_readTree source c).self.statement inherited _ hread _
    (List.mem_singleton_self _)
  rw [visit_statement hread, statements_singleton]
  exact statement_view hconforms.2 context

/-! ## Walking by visits -/

/-- Whatever a node is read as, walking it is paying the visits of the node. -/
def Follows (w : Walker) (source : Source) (see : Event → Option Event) (c : SourceTree) : Prop :=
  ∀ inherited, Yields ((Tree.readTree source c).note.statement inherited).result fun us =>
    ∀ context, (w.statements (.str context) us).Alike see Eq
      (w.course source (w.visitsOf source context inherited c))

variable {w : Walker} {source : Source} {see : Event → Option Event} {head : CstHead}
  {cs : List SourceTree} {inherited : List ModifierKind}

/-- Nodes in a row. -/
theorem groups_follow (h : ∀ c ∈ cs, w.Follows source see c) (inherited : List ModifierKind) :
    Yields (Tree.decodeEach (fun c : Tree.ReadNode => (c.note.statement inherited).result)
        (cs.map (Tree.readTree source))) fun groups =>
      ∀ context, (w.statements (.str context) groups.flatten).Alike see Eq
        (w.course source (cs.flatMap (w.visitsOf source context inherited))) := by
  induction cs with
  | nil => exact Tree.yields_ok fun _ => Walk.alike_refl _
  | cons c rest ih =>
    rw [List.map_cons, Tree.decodeEach]
    refine (h c (List.mem_cons_self ..) inherited).bind fun us hus => ?_
    refine (ih fun d hd => h d (List.mem_cons_of_mem _ hd)).bind fun groups hgroups => ?_
    refine Tree.yields_pure fun context => ?_
    rw [List.flatten_cons, statements_append, List.flatMap_cons, course_append]
    exact (hus context).bind fun _ _ _ => hgroups context

/-- The statements among the children of a node. -/
theorem statementsAmong_follow (h : ∀ c ∈ cs, w.Follows source see c) :
    Yields (Tree.statementsAmong (cs.map (Tree.readTree source))).result fun us =>
      ∀ context, (w.statements (.str context) us).Alike see Eq
        (w.course source ((Cst.named cs).flatMap (w.visitsOf source context []))) := by
  unfold Tree.statementsAmong
  simp only [Built.result_bind, Built.result_forEach, Built.result_pure]
  rw [Tree.named_readTree]
  have hnamed := groups_follow (fun c (hc : c ∈ Cst.named cs) => h c (Cst.mem_of_mem_named hc)) []
  exact hnamed.bind fun groups hgroups => Tree.yields_ok hgroups

/-- A body is walked by the visits of its statements. -/
theorem block_follows (hkinds : w.kinds = .standard) {body : Option SourceTree}
    (h : ∀ d, body = some d → d.EachNode (w.Follows source see)) :
    Yields (Tree.block .moduleBlock (body.map (Tree.readTree source))).result fun block =>
      w.WalksBody see block fun context =>
        w.course source (w.visitsIn source context body) := by
  intro block hblock
  obtain ⟨us, hus, hwalks⟩ := block_open see hkinds source body block hblock
  intro fields hfields context
  refine (hwalks fields hfields context).trans ?_
  cases body with
  | none =>
    obtain rfl := Except.ok.inj hus
    exact Walk.alike_refl _
  | some d =>
    have hchildren := fun e (he : e ∈ d.children) => ((h d rfl).child he).self
    have hstatements :
        (Tree.statementsAmong (Tree.readTree source d).children).result = .ok us := hus
    rw [Tree.children_readTree] at hstatements
    exact statementsAmong_follow hchildren us hstatements context

/-! ## Nodes around statements -/

/-- What is read of a single statement is what it is read as. -/
theorem flatten_singleton (read : Tree.ReadNode → Decoded (List Json)) (c : Tree.ReadNode) :
    (Tree.decodeEach read [c]).map List.flatten = read c := by
  show ((do let us ← read c; let bs ← (.ok [] : Decoded (List (List Json))); return us :: bs) :
    Decoded (List (List Json))).map List.flatten = read c
  cases read c with
  | error fault => rfl
  | ok us => exact congrArg Except.ok (List.append_nil us)

section Around

variable {modifiers : List ModifierKind} {inner : List SourceTree}

/-- An export of a declaration stands around it. -/
theorem exportStatement_around (h : Placement.ofExport cs = .around modifiers inner)
    (inherited : List ModifierKind) :
    (Tree.exportStatement source head (cs.map (Tree.readTree source)) inherited).result =
      (Tree.decodeEach (fun c : Tree.ReadNode => (c.note.statement (inherited ++ modifiers)).result)
        (inner.map (Tree.readTree source))).map List.flatten := by
  unfold Placement.ofExport at h
  unfold Tree.exportStatement Tree.exportModifiers
  rw [Tree.childAt?_readTree, Cst.tokens_map Tree.head_readTree]
  cases hdeclaration : Cst.childAt? "declaration" cs with
  | none =>
    rw [hdeclaration] at h
    cases h
  | some declaration =>
    rw [hdeclaration] at h
    obtain ⟨rfl, rfl⟩ := Placement.around.inj h
    rw [List.append_assoc, List.map_singleton, flatten_singleton]
    rfl

/-- Whether an ambient declaration is one of the global scope shows before it is read. -/
theorem any_global_readTree :
    ((cs.map (Tree.readTree source)).any fun c => c.type = "global") =
      cs.any fun c => c.type = "global" :=
  Cst.any_type_map Tree.head_readTree (fun t => decide (t = "global")) cs

/-- An ambient declaration that is not one of the global scope stands around its statements. -/
theorem ambientDeclaration_around (h : Placement.ofAmbient cs = .around modifiers inner)
    (inherited : List ModifierKind) :
    (Tree.ambientDeclaration head (cs.map (Tree.readTree source)) inherited).result =
      (Tree.decodeEach (fun c : Tree.ReadNode => (c.note.statement (inherited ++ modifiers)).result)
        (inner.map (Tree.readTree source))).map List.flatten := by
  unfold Placement.ofAmbient at h
  unfold Tree.ambientDeclaration
  dsimp only
  rw [any_global_readTree]
  split at h
  · cases h
  next hnone =>
    obtain ⟨rfl, rfl⟩ := Placement.around.inj h
    rw [if_neg hnone]
    simp only [Built.result_bind, Built.result_forEach, Built.result_pure]
    rw [Tree.withoutComments_readTree]
    rfl

/-- An expression that is a single module stands around it. -/
theorem expressionStatement_around (h : Placement.ofExpression cs = .around modifiers inner)
    (inherited : List ModifierKind) :
    (Tree.expressionStatement source head (cs.map (Tree.readTree source)) inherited).result =
      (Tree.decodeEach (fun c : Tree.ReadNode => (c.note.statement (inherited ++ modifiers)).result)
        (inner.map (Tree.readTree source))).map List.flatten := by
  unfold Placement.ofExpression at h
  unfold Tree.expressionStatement
  dsimp only
  rw [Tree.withoutComments_readTree]
  split at h
  next only honly =>
    split at h
    next htype =>
      obtain ⟨rfl, rfl⟩ := Placement.around.inj h
      have hread : (Tree.readTree source only).type = only.type :=
        congrArg CstHead.type (Tree.head_readTree only)
      rw [honly, List.map_singleton, flatten_singleton]
      dsimp only
      rw [hread, if_pos htype, Tree.head_readTree, Tree.children_readTree,
        ← readTree_module htype, List.append_nil]
    next => cases h
  next => cases h

/-- A node around other statements is read as these, with its own modifiers handed down. -/
theorem statement_around (h : Placement.of source head cs = .around modifiers inner)
    (inherited : List ModifierKind) :
    (Tree.statement source head (cs.map (Tree.readTree source)) inherited).result =
      (Tree.decodeEach (fun c : Tree.ReadNode => (c.note.statement (inherited ++ modifiers)).result)
        (inner.map (Tree.readTree source))).map List.flatten := by
  unfold Placement.of at h
  unfold Tree.statement
  cases hshape : Tree.StatementShape.ofType head.type with
  | comment =>
    rw [hshape] at h
    obtain ⟨rfl, rfl⟩ := Placement.around.inj h
    rfl
  | exporting =>
    rw [hshape] at h
    exact exportStatement_around h inherited
  | ambient =>
    rw [hshape] at h
    exact ambientDeclaration_around h inherited
  | expression =>
    rw [hshape] at h
    exact expressionStatement_around h inherited
  | module =>
    -- a module is opened or left as it is
    rw [hshape] at h
    dsimp only at h
    unfold Placement.ofModule at h
    split at h
    · cases h
    · split at h
      · cases h
      · cases h
  | _ =>
    rw [hshape] at h
    cases h

end Around

/-! ## Modules -/

/-- Walking a module is entering the modules that it opens and walking the body in the innermost
one. -/
def OpensBody (w : Walker) (see : Event → Option Event) (levels : List ModuleLevel)
    (walk : String → Walk Unit) (v : Json) : Prop :=
  ∀ outer context, (w.statement context v).Alike see Eq (do
    w.openLevels levels
    walk (w.contextIn outer levels))

/-- A module with modifiers, and with the modules of the other segments of its name around its
body. -/
theorem outerModule_opens (hsee : Event.Quiet see) (hkinds : w.kinds = .standard) {first : String}
    {rest : List String} {flags innerFlags : Nat} {head : CstHead} (nameHead : CstHead)
    {modifiers name body : Option Json} {walk : String → Walk Unit}
    (hname : Node.ownText? (name.getD .null) = Node.asText? (.str first))
    (hnonempty : ∀ segment ∈ first :: rest, segment ≠ "") (hbody : w.WalksBody see body walk) :
    w.OpensBody see (⟨first, flags⟩ :: rest.map (⟨·, innerFlags⟩)) walk
      (flagged .moduleDeclaration head flags
        [("modifiers", modifiers), ("name", name),
         ("body", Tree.innerModules head nameHead innerFlags rest body)]) := by
  intro outer context
  obtain ⟨hfirst, hrest⟩ := List.forall_mem_cons.mp hnonempty
  have hmodule : Tree.IsModule (ModuleLevel.mk first flags).flags (ModuleLevel.mk first flags).name
      (Tree.innerModules head nameHead innerFlags rest body)
      (flagged .moduleDeclaration head flags [("modifiers", modifiers), ("name", name),
        ("body", Tree.innerModules head nameHead innerFlags rest body)]) :=
    Tree.isModule_outer hname
  exact modules_open hsee hkinds hmodule hfirst hrest hbody outer context

/-- A module with a name opens the modules of that name around its body. -/
theorem moduleDeclaration_opens (hsee : Event.Quiet see) (hkinds : w.kinds = .standard)
    {levels : List ModuleLevel} {body : Option SourceTree} {walk : String → Walk Unit}
    (h : Placement.ofModule source head cs = .opening levels body)
    (hbody : Yields (Tree.block .moduleBlock (body.map (Tree.readTree source))).result fun block =>
      w.WalksBody see block walk) (inherited : List ModifierKind) :
    Yields (Tree.moduleDeclaration source head (cs.map (Tree.readTree source)) inherited).result
      (w.OpensBody see levels walk) := by
  obtain ⟨nameNode, first, rest, hname, hnames, rfl, rfl⟩ := Placement.ofModule_opening h
  have hnonempty : ∀ name ∈ first :: rest, name ≠ "" := hnames ▸ Placement.moduleNames_ne_empty
  intro v hv
  obtain ⟨body, hread, hcases⟩ := Tree.moduleDeclaration_readTree hv
  have hbody := hbody body hread
  cases hcases with
  | unnamed hnone => cases hname.symm.trans hnone
  | quoted namedBy text modifiers hfound htype htext =>
    obtain rfl := Option.some.inj (hname.symm.trans hfound)
    rw [Placement.moduleNames_quoted htype htext] at hnames
    -- a name in quotes is a single one
    by_cases hempty : unquote text = ""
    · rw [List.filter_cons_of_neg (by simpa using hempty)] at hnames
      cases hnames
    · rw [List.filter_cons_of_pos (by simpa using hempty)] at hnames
      obtain ⟨rfl, rfl⟩ := List.cons.inj hnames
      have hown := Tree.ownText_make .stringLiteral nameNode.head (unquote text)
      rw [← Option.getD_some (a := Tree.make .stringLiteral _ _)] at hown
      exact outerModule_opens hsee hkinds nameNode.head hown hnonempty hbody
  | segmentless namedBy text hfound htype htext hsegments =>
    obtain rfl := Option.some.inj (hname.symm.trans hfound)
    rw [Placement.moduleNames_dotted htype htext, hsegments] at hnames
    cases hnames
  | dotted namedBy text _ _ modifiers hfound htype htext hsegments =>
    obtain rfl := Option.some.inj (hname.symm.trans hfound)
    rw [Placement.moduleNames_dotted htype htext, hsegments] at hnames
    obtain ⟨rfl, rfl⟩ := List.cons.inj hnames
    exact outerModule_opens hsee hkinds nameNode.head
      (Tree.ownText_identifierNamed nameNode.head _) hnonempty hbody

/-- Walking the one statement of a module that opens others is entering them all. -/
theorem OpensBody.single {levels : List ModuleLevel} {walk : String → Walk Unit} {v : Json}
    (h : w.OpensBody see levels walk v) (context : String) :
    (w.statements (.str context) [v]).Alike see Eq (do
      w.openLevels levels
      walk (w.contextIn context levels)) := by
  rw [statements_singleton]
  exact h context (.str context)

/-- An ambient declaration of the global scope opens it around its body. -/
theorem ambientDeclaration_opens (hsee : Event.Quiet see) (hkinds : w.kinds = .standard)
    {levels : List ModuleLevel} {body : Option SourceTree} {walk : String → Walk Unit}
    (h : Placement.ofAmbient cs = .opening levels body)
    (hbody : Yields (Tree.block .moduleBlock (body.map (Tree.readTree source))).result fun block =>
      w.WalksBody see block walk) (inherited : List ModifierKind) :
    Yields (Tree.ambientDeclaration head (cs.map (Tree.readTree source)) inherited).result
      fun us => ∃ v, us = [v] ∧ w.OpensBody see levels walk v := by
  unfold Placement.ofAmbient at h
  unfold Tree.ambientDeclaration
  dsimp only
  rw [any_global_readTree, Tree.childOfType?_readTree]
  split at h
  next hany =>
    obtain ⟨rfl, rfl⟩ := Placement.opening.inj h
    rw [if_pos hany]
    simp only [Built.result_bind, Built.result_pure]
    refine hbody.bind fun block hblock => Tree.yields_ok ⟨_, rfl, fun outer context => ?_⟩
    have hmodule : Tree.IsModule NodeFlag.globalAugmentation.bit "global"
        (Tree.innerModules head head NodeFlag.globalAugmentation.bit [] block)
        (flagged .moduleDeclaration head NodeFlag.globalAugmentation.bit
          [("modifiers", Tree.modifierNodes (inherited ++ [.declared])),
           ("name", Tree.identifierNamed head "global"), ("body", block)]) :=
      Tree.isModule_outer (Tree.ownText_identifierNamed head "global")
    have hname : (ModuleLevel.mk "global" NodeFlag.globalAugmentation.bit).name ≠ "" := by decide
    exact modules_open hsee hkinds hmodule hname (List.forall_mem_nil _) hblock outer context
  next => cases h

/-- A node that opens modules is read as a single module, whose walk enters them all. -/
theorem statement_opening (hsee : Event.Quiet see) (hkinds : w.kinds = .standard)
    {levels : List ModuleLevel} {body : Option SourceTree} {walk : String → Walk Unit}
    (h : Placement.of source head cs = .opening levels body)
    (hbody : Yields (Tree.block .moduleBlock (body.map (Tree.readTree source))).result fun block =>
      w.WalksBody see block walk) (inherited : List ModifierKind) :
    Yields (Tree.statement source head (cs.map (Tree.readTree source)) inherited).result fun us =>
      ∀ context, (w.statements (.str context) us).Alike see Eq (do
        w.openLevels levels
        walk (w.contextIn context levels)) := by
  unfold Placement.of at h
  unfold Tree.statement
  cases hshape : Tree.StatementShape.ofType head.type with
  | ambient =>
    rw [hshape] at h
    refine (ambientDeclaration_opens hsee hkinds h hbody inherited).mono ?_
    rintro _ ⟨v, rfl, hv⟩
    exact hv.single
  | module =>
    rw [hshape] at h
    dsimp only at h ⊢
    simp only [Built.result_bind, Built.result_pure]
    refine (moduleDeclaration_opens hsee hkinds h hbody inherited).bind fun v hv => ?_
    exact Tree.yields_ok hv.single
  | comment =>
    rw [hshape] at h
    cases h
  | exporting =>
    -- an export stands around a declaration or is read as it is
    rw [hshape] at h
    dsimp only at h
    unfold Placement.ofExport at h
    split at h
    · cases h
    · cases h
  | expression =>
    -- so does an expression with a module
    rw [hshape] at h
    dsimp only at h
    unfold Placement.ofExpression at h
    split at h
    · split at h
      · cases h
      · cases h
    · cases h
  | _ =>
    rw [hshape] at h
    cases h

/-! ## Nodes of every placement -/

/-- **Walking a node is paying its visits.** -/
theorem follows_readTree (hsee : Event.Quiet see) (hkinds : w.kinds = .standard) (source : Source)
    (tree : SourceTree) : tree.EachNode (w.Follows source see) := by
  -- contexts and modifiers change on the way down, so neither is fixed here
  induction tree using Cst.induct with
  | node head note cs ih =>
    refine Cst.eachNode_node.mpr ⟨fun inherited => ?_, ih⟩
    have hvisits := fun context => w.visitsOf_eq source context inherited (.node head note cs)
    cases hplace : Placement.of source (Cst.node head note cs).head
        (Cst.node head note cs).children with
    | itself =>
      simp only [hplace] at hvisits
      intro us hus context
      rw [hvisits, course_singleton, visit_statement hus]
      exact Walk.alike_refl _
    | around modifiers inner =>
      simp only [hplace] at hvisits
      have hinner := fun c hc => (ih c (Placement.mem_of_around hplace c hc)).self
      rw [Tree.note_readTree]
      show Yields (Tree.statement source (Cst.node head note cs).head
        ((Cst.node head note cs).children.map (Tree.readTree source)) inherited).result _
      rw [statement_around hplace]
      refine (groups_follow hinner (inherited ++ modifiers)).map fun groups hgroups context => ?_
      rw [hvisits]
      exact hgroups context
    | opening levels body =>
      simp only [hplace] at hvisits
      have hbody := block_follows hkinds fun d hd => ih d (Placement.mem_of_opening hplace d hd)
      rw [Tree.note_readTree]
      refine (statement_opening hsee hkinds hplace hbody inherited).mono fun us hus context => ?_
      rw [hvisits, course_append, course_levels]
      exact hus context

end Walker

/-! ## Extractions -/

namespace World

variable {world : World} {settings : Settings} {bytes : ByteArray} {module fileName : Option String}
  {tsx : Option Bool} {drawn : Nat}

/-- The visits of a source, in order. -/
def visits (world : World) (settings : Settings) (bytes : ByteArray) (module : Option String)
    (tsx : Option Bool) : List Visit :=
  (settings.walker .standard world.tokens).visitsIn ⟨bytes⟩ (settings.topContext module)
    (some (world.parsed settings bytes tsx).root)

/-- **An extraction pays the visits of its source,** unless it is over before the walk starts. -/
theorem extractSource_course {see : Event → Option Event} (hsee : Event.Quiet see)
    (hkinds : settings.kindTable world.files = .ok .standard)
    (hwalked : ¬ (world.extractSource settings bytes module fileName tsx drawn).EndsEarly) :
    (world.extractSource settings bytes module fileName tsx).Alike see Eq
      ((settings.walker .standard world.tokens).course ⟨bytes⟩
        (world.visits settings bytes module tsx)) := by
  have hseen := extractSource_seen hsee world settings bytes module fileName tsx
  have hresult := (hseen drawn).2.2
  by_cases hrefuses : world.Refuses settings bytes tsx
  · rw [statementWalk_refused _ hrefuses] at hresult
    exact absurd (endsEarly_of_alike hresult (.inr ⟨fileName, rfl⟩)) hwalked
  cases htop : world.topStatements settings bytes tsx with
  | error fault =>
    rw [statementWalk_undecodable _ hrefuses htop] at hresult
    exact absurd (endsEarly_of_alike hresult (.inl rfl)) hwalked
  | ok us =>
    rw [statementWalk_ok _ hkinds hrefuses htop] at hseen
    refine hseen.trans ?_
    unfold topStatements at htop
    rw [Tree.children_readTree] at htop
    have hchildren := fun c (_ : c ∈ (world.parsed settings bytes tsx).root.children) =>
      (Walker.follows_readTree (w := settings.walker .standard world.tokens) hsee rfl ⟨bytes⟩ c).self
    exact Walker.statementsAmong_follow hchildren us htop _

/-- An extraction gets to a visit: it is not over before the walk starts, and the visits in front
are paid without a fault. -/
structure Reaches (world : World) (settings : Settings) (bytes : ByteArray)
    (module fileName : Option String) (tsx : Option Bool) (drawn : Nat) (before : List Visit)
    (visit : Visit) (after : List Visit) : Prop where
  walked : ¬ (world.extractSource settings bytes module fileName tsx drawn).EndsEarly
  visits : world.visits settings bytes module tsx = before ++ visit :: after
  reached : ((settings.walker .standard world.tokens).course ⟨bytes⟩ before drawn).result = .ok ()

variable {before after : List Visit} {visit : Visit}

/-- An extraction that succeeds gets to each of its visits. -/
theorem Reaches.of_ok (hkinds : settings.kindTable world.files = .ok .standard)
    (hok : (world.extractSource settings bytes module fileName tsx drawn).result.isOk = true)
    (hvisits : world.visits settings bytes module tsx = before ++ visit :: after) :
    world.Reaches settings bytes module fileName tsx drawn before visit after := by
  have hwalked : ¬ (world.extractSource settings bytes module fileName tsx drawn).EndsEarly := by
    rintro ⟨fault, hfault, -⟩
    rw [hfault] at hok
    cases hok
  obtain ⟨-, -, hresult⟩ := extractSource_course Event.quiet_call hkinds hwalked drawn
  rw [hvisits, Walker.course_append] at hresult
  refine ⟨hwalked, hvisits, ?_⟩
  cases hbefore : ((settings.walker .standard world.tokens).course ⟨bytes⟩ before drawn).result with
  | ok => rfl
  | error fault =>
    rw [Walk.bind_apply_error hbefore] at hresult
    obtain ⟨other, hother, -⟩ := hresult.eq_error
    rw [hother] at hok
    cases hok

/-- Nothing is pushed before the walk starts. -/
theorem pushes_of_endsEarly (hkinds : settings.kindTable world.files = .ok .standard)
    (h : (world.extractSource settings bytes module fileName tsx drawn).EndsEarly) :
    Event.pushes (world.extractSource settings bytes module fileName tsx drawn).events = [] := by
  have hcalls := calls_of_endsEarly world hkinds bytes module fileName tsx drawn h
  unfold Event.calls at hcalls
  rw [← Event.pushes_call, hcalls]
  rfl

/-- An extraction that pushes anything gets to a visit if the visits in front of it are paid. -/
theorem Reaches.of_pushed (hkinds : settings.kindTable world.files = .ok .standard)
    (hpushed :
      Event.pushes (world.extractSource settings bytes module fileName tsx drawn).events ≠ [])
    (hvisits : world.visits settings bytes module tsx = before ++ visit :: after)
    (hok :
      ((settings.walker .standard world.tokens).course ⟨bytes⟩ before drawn).result.isOk = true) :
    world.Reaches settings bytes module fileName tsx drawn before visit after := by
  refine ⟨fun hearly => hpushed (pushes_of_endsEarly hkinds hearly), hvisits, ?_⟩
  cases hbefore : ((settings.walker .standard world.tokens).course ⟨bytes⟩ before drawn).result with
  | ok => rfl
  | error fault =>
    rw [hbefore] at hok
    cases hok

/-- Whatever an extraction pushes, it gets to a visit that pushes it. -/
theorem Reaches.of_mem_pushes (hkinds : settings.kindTable world.files = .ok .standard) {p : Push}
    (h : p ∈ Event.pushes (world.extractSource settings bytes module fileName tsx drawn).events) :
    ∃ before visit after,
      world.Reaches settings bytes module fileName tsx drawn before visit after ∧
      p ∈ Event.pushes ((settings.walker .standard world.tokens).visit ⟨bytes⟩ visit
        ((settings.walker .standard world.tokens).course ⟨bytes⟩ before drawn).drawn).events := by
  by_cases hwalked : (world.extractSource settings bytes module fileName tsx drawn).EndsEarly
  · rw [pushes_of_endsEarly hkinds hwalked] at h
    cases h
  · obtain ⟨hevents, -, -⟩ := extractSource_course Event.quiet_call hkinds hwalked drawn
    have hpushes := congrArg Event.pushes hevents
    rw [Event.pushes_call, Event.pushes_call] at hpushes
    rw [hpushes] at h
    obtain ⟨before, visit, after, hvisits, hreached, hpushed⟩ :=
      Walker.exists_visit_of_mem_pushes h
    exact ⟨before, visit, after, ⟨hwalked, hvisits, hreached⟩, hpushed⟩

/-- A statement that an extraction gets to is one by itself. -/
theorem Reaches.atItself
    (h : world.Reaches settings bytes module fileName tsx drawn before visit after) :
    visit.AtItself ⟨bytes⟩ := by
  have hmem : visit ∈ world.visits settings bytes module tsx := by
    rw [h.visits]
    exact List.mem_append_right _ (List.mem_cons_self ..)
  obtain ⟨c, -, hc⟩ := List.mem_flatMap.mp hmem
  exact (Walker.visitsOf_atItself _ _ c).self _ _ visit hc

/-- **What a visit does for the extraction that gets to it.** If it is paid, what it pushes stands
between what was pushed before and what the visits behind it push. If it fails, nothing is pushed
behind it, and the extraction fails in the same way. -/
theorem Reaches.outcome (hkinds : settings.kindTable world.files = .ok .standard)
    (h : world.Reaches settings bytes module fileName tsx drawn before visit after) :
    let w := settings.walker .standard world.tokens
    let outcome := world.extractSource settings bytes module fileName tsx drawn
    let start := w.course ⟨bytes⟩ before drawn
    let paid := w.visit ⟨bytes⟩ visit start.drawn
    (paid.result = .ok () → Event.pushes outcome.events = Event.pushes start.events ++
      Event.pushes paid.events ++ Event.pushes (w.course ⟨bytes⟩ after paid.drawn).events) ∧
    ∀ fault, paid.result = .error fault →
      Event.pushes outcome.events = Event.pushes start.events ++ Event.pushes paid.events ∧
      ∃ other, outcome.result = .error other ∧ other.outline = fault.outline := by
  intro w outcome start paid
  obtain ⟨hevents, -, hresult⟩ := extractSource_course Event.quiet_call hkinds h.walked drawn
  have hpushes := congrArg Event.pushes hevents
  rw [Event.pushes_call, Event.pushes_call] at hpushes
  have hcourse : w.course ⟨bytes⟩ (world.visits settings bytes module tsx) drawn =
      ⟨start.events ++ (w.course ⟨bytes⟩ (visit :: after) start.drawn).events,
        (w.course ⟨bytes⟩ (visit :: after) start.drawn).drawn,
        (w.course ⟨bytes⟩ (visit :: after) start.drawn).result⟩ := by
    rw [h.visits, Walker.course_append]
    exact Walk.bind_apply_ok h.reached
  rw [hcourse] at hpushes hresult
  rw [Event.pushes_append] at hpushes
  have hrest : w.course ⟨bytes⟩ (visit :: after) = (do
      w.visit ⟨bytes⟩ visit
      w.course ⟨bytes⟩ after) := rfl
  rw [hrest] at hpushes hresult
  refine ⟨fun hok => ?_, fun fault hfault => ?_⟩
  · have hpaid : (w.visit ⟨bytes⟩ visit start.drawn).result = .ok () := hok
    rw [Walk.bind_apply_ok hpaid, Event.pushes_append, ← List.append_assoc] at hpushes
    exact hpushes
  · have hpaid : (w.visit ⟨bytes⟩ visit start.drawn).result = .error fault := hfault
    rw [Walk.bind_apply_error hpaid] at hpushes hresult
    exact ⟨hpushes, hresult.eq_error⟩

/-- A statement that an extraction gets to can be read. -/
theorem Reaches.reads (hkinds : settings.kindTable world.files = .ok .standard)
    {context : String} {inherited : List ModifierKind} {c : SourceTree}
    (h : world.Reaches settings bytes module fileName tsx drawn before
      (.statement context inherited c) after) :
    ∃ us, ((Tree.readTree ⟨bytes⟩ c).note.statement inherited).result = .ok us := by
  cases hread : ((Tree.readTree ⟨bytes⟩ c).note.statement inherited).result with
  | ok us => exact ⟨us, rfl⟩
  | error fault =>
    -- a text that cannot be decoded is found before the walk starts
    have hfail : (settings.walker .standard world.tokens).visit ⟨bytes⟩
        (.statement context inherited c) = Walk.fail .undecodable := by
      show (Walk.ofExcept (((Tree.readTree ⟨bytes⟩ c).note.statement inherited).result.mapError
        _) >>= _) = _
      rw [hread]
      rfl
    obtain ⟨-, hfailed⟩ := h.outcome hkinds
    obtain ⟨-, other, hother, houtline⟩ := hfailed .undecodable (by rw [hfail]; rfl)
    have hundecodable : other = .undecodable :=
      Fault.eq_of_outline houtline fun ⟨_, h⟩ => by cases h
    exact absurd ⟨other, hother, .inl hundecodable⟩ h.walked

end World

end DeclCatalogue
