import DeclCatalogue.Proofs.Extraction.Declarations
import DeclCatalogue.Proofs.Extraction.Placement
import DeclCatalogue.Proofs.Text.Dotted

/-!
# Namespaces in one another

A namespace with a dotted name stands for as many namespaces as the name has segments, one inside
the other. `OpensNames` says of a node of the concrete tree which names it opens around which body,
whether they stand in one dotted name, in one namespace each, or in anything in between, and
`opensNames_open` what walking it comes to: the names are pushed from the outside to the inside, and
the statements of the innermost body are walked under the last of them.

The builder folds the segments of a name from the right, and the walker takes them apart from the
left. In between stand modules whose body is a module and not a block; `innerModules_open` goes
through them by induction on the segments, and `opensNames_open` through namespaces in namespaces.
-/

namespace DeclCatalogue

open Json (lookup)
open Node (asText?)
open DeclCatalogue.Tree (make flagged Yields Built)

/-! ## Namespaces in a concrete tree -/

/-- A node that stands as the one statement among children, by itself or as an expression. -/
inductive OnlyStatement (children : List SourceTree) (c : SourceTree) : Prop where
  | plain : Cst.withoutComments (Cst.named children) = [c] → OnlyStatement children c
  | expression (wrapper : SourceTree) : Cst.withoutComments (Cst.named children) = [wrapper] →
      wrapper.type = "expression_statement" →
      Cst.withoutComments (Cst.named wrapper.children) = [c] → OnlyStatement children c

/-- A namespace whose name is made of the given segments and whose body is the given one. -/
structure IsNamespace (source : Source) (names : List String) (body : Option SourceTree)
    (c : SourceTree) : Prop where
  type : c.type = "internal_module"
  name : ∃ nameNode text, Cst.childAt? "name" c.children = some nameNode ∧
    nameNode.type ≠ "string" ∧ source.text nameNode.head = .ok text ∧ IsDotted names text
  nonempty : names ≠ []
  body : Cst.childAt? "body" c.children = body

/-- Namespaces in one another, from the outside to the inside: the nodes they are, the names they
have in all, and the body of the innermost one. It is one namespace, or one whose body has a
namespace for its only statement, and so on. With a single name for each of them, these are
namespaces that are nested without points. -/
inductive OpensNames (source : Source) :
    List SourceTree → List String → Option SourceTree → SourceTree → Prop where
  | single {names : List String} {body : Option SourceTree} {c : SourceTree} :
      IsNamespace source names body c → OpensNames source [c] names body c
  | around {nodes : List SourceTree} {outer names : List String} {body : Option SourceTree}
      {block inner c : SourceTree} :
      IsNamespace source outer (some block) c → OnlyStatement block.children inner →
      OpensNames source nodes names body inner →
      OpensNames source (c :: nodes) (outer ++ names) body c

theorem OpensNames.type {source : Source} {nodes : List SourceTree} {names : List String}
    {body : Option SourceTree} {c : SourceTree} (h : OpensNames source nodes names body c) :
    c.type = "internal_module" := by
  cases h with
  | single h => exact h.type
  | around h => exact h.type

theorem OpensNames.nonempty {source : Source} {nodes : List SourceTree} {names : List String}
    {body : Option SourceTree} {c : SourceTree} (h : OpensNames source nodes names body c) :
    names ≠ [] := by
  cases h with
  | single h => exact h.nonempty
  | around h => exact List.append_ne_nil_of_left_ne_nil h.nonempty _

/-- The text of each modifier that stands in a node can be decoded. -/
def ModifiersDecode (source : Source) (c : SourceTree) : Prop :=
  ∃ found, Tree.modifiers source [] c.children = .ok found

/-- The statements in a body, if there is a body. -/
def bodyStatements (source : Source) (body : Option SourceTree) : Decoded (List Json) :=
  match body with
  | none => .ok []
  | some block => (Tree.statementsAmong (Tree.readTree source block).children).result

/-! ## One statement -/

namespace Tree

variable {source : Source}

/-- A comment is read as no statement. -/
theorem statement_comment {c : SourceTree} (htype : c.type = "comment")
    (inherited : List ModifierKind) :
    ((readTree source c).note.statement inherited).result = .ok [] := by
  have htype : c.head.type = "comment" := htype
  rw [note_readTree]
  unfold reading statement
  dsimp only
  rw [htype]
  rfl

/-- Comments add nothing to the statements among children. -/
theorem statementsAmong_withoutComments (cs : List SourceTree) :
    (statementsAmong (cs.map (readTree source))).result =
      (decodeEach (fun c : ReadNode => (c.note.statement []).result)
        ((Cst.withoutComments (Cst.named cs)).map (readTree source))).map List.flatten := by
  unfold statementsAmong
  simp only [Built.result_bind, Built.result_forEach, Built.result_pure]
  rw [named_readTree]
  show Except.map List.flatten _ = _
  induction Cst.named cs with
  | nil => rfl
  | cons c rest ih =>
    rw [List.map_cons, decodeEach]
    unfold Cst.withoutComments at ih ⊢
    by_cases htype : c.type = "comment"
    · rw [List.filter_cons_of_neg (by simpa using htype), ← ih, statement_comment htype]
      cases decodeEach (fun c : ReadNode => (c.note.statement []).result)
        (rest.map (readTree source)) <;> rfl
    · rw [List.filter_cons_of_pos (by simpa using htype), List.map_cons, decodeEach]
      cases ((readTree source c).note.statement []).result with
      | error fault => rfl
      | ok us =>
        -- what the rest is read as is put behind the statements of the first node
        have hstep : ∀ x : Decoded (List (List Json)),
            ((do let us ← (.ok us : Decoded (List Json)); let bs ← x; return us :: bs) :
              Decoded (List (List Json))).map List.flatten =
                (x.map List.flatten).map (us ++ ·) := by
          intro x
          cases x <;> rfl
        rw [hstep, hstep, ih]

/-- A module that is the only statement is read as one node. -/
theorem statementsAmong_only {cs : List SourceTree} {c : SourceTree} (h : OnlyStatement cs c)
    (htype : c.type = "internal_module") :
    (statementsAmong (cs.map (readTree source))).result =
      (moduleDeclaration source c.head (c.children.map (readTree source)) []).result.map ([·]) := by
  have hmodule : ((readTree source c).note.statement []).result =
      (moduleDeclaration source c.head (c.children.map (readTree source)) []).result.map ([·]) := by
    rw [Walker.readTree_module (.inl htype), Built.result_bind]
    rfl
  rw [statementsAmong_withoutComments]
  have hsingle : ∀ x : Decoded (List Json),
      ((do let us ← x; let bs ← (.ok [] : Decoded (List (List Json))); return us :: bs) :
        Decoded (List (List Json))).map List.flatten = x := by
    intro x
    cases x with
    | error fault => rfl
    | ok us => exact congrArg Except.ok (List.append_nil us)
  cases h with
  | plain honly =>
    rw [honly]
    exact (hsingle _).trans hmodule
  | expression wrapper honly hwrapper hinner =>
    rw [honly]
    refine (hsingle _).trans ?_
    have hshape : StatementShape.ofType wrapper.head.type = .expression := by
      rw [show wrapper.head.type = "expression_statement" from hwrapper]
      rfl
    have hhead : (readTree source c).type = "internal_module" :=
      (congrArg CstHead.type (head_readTree c)).trans htype
    dsimp only
    rw [note_readTree]
    show (statement source wrapper.head _ []).result = _
    unfold statement
    rw [hshape]
    show (expressionStatement source wrapper.head _ []).result = _
    unfold expressionStatement
    dsimp only
    rw [withoutComments_readTree, hinner, List.map_singleton]
    dsimp only
    rw [if_pos (.inl hhead), head_readTree, children_readTree, Built.result_bind]
    rfl

end Tree

/-! ## Flags -/

/-- More flags have no fewer bits in common with a mask. -/
theorem commonBits_or {flags : Nat} {mask : Int} (h : commonBits flags mask ≠ 0) (more : Nat) :
    commonBits (flags ||| more : Nat) mask ≠ 0 := by
  -- the common bits of the two together are those of either
  have hsplit : ∃ rest : Nat, ∃ bits : Nat, commonBits flags mask = bits ∧
      commonBits (flags ||| more : Nat) mask = (bits ||| rest : Nat) := by
    cases mask with
    | ofNat n => exact ⟨more &&& n, flags &&& n, rfl,
      congrArg Int.ofNat (Nat.and_or_distrib_right ..)⟩
    | negSucc n =>
      refine ⟨more ^^^ (more &&& n), flags ^^^ (flags &&& n), rfl, congrArg Int.ofNat ?_⟩
      refine Nat.eq_of_testBit_eq fun i => ?_
      simp only [Nat.testBit_xor, Nat.testBit_and, Nat.testBit_or]
      cases flags.testBit i <;> cases more.testBit i <;> cases n.testBit i <;> rfl
  obtain ⟨rest, bits, hbits, hboth⟩ := hsplit
  rw [hbits] at h
  rw [hboth]
  intro hzero
  exact h (congrArg _ (Nat.or_eq_zero_iff.mp (Int.ofNat.inj hzero)).1)

namespace Walker

/-! ## Walking a namespace -/

/-- The names are pushed as namespaces, in order. -/
def openNames (names : List String) : Walk Unit :=
  Walk.forEach (fun name => Walk.push (.namespaceName (.str name))) names

/-- Opening names is pushing them and nothing else. -/
theorem openNames_apply (names : List String) (drawn : Nat) :
    openNames names drawn =
      ⟨names.map fun name => .pushed (.namespaceName (.str name)), drawn, .ok ()⟩ := by
  induction names with
  | nil => rfl
  | cons name rest ih =>
    have hpush : (Walk.push (.namespaceName (.str name)) drawn).result = .ok () := rfl
    show ((Walk.push (.namespaceName (.str name)) >>= fun _ => openNames rest) : Walk Unit)
      drawn = _
    rw [Walk.bind_apply_ok hpush]
    have hdrawn : (Walk.push (.namespaceName (.str name)) drawn).drawn = drawn := rfl
    rw [hdrawn, ih]
    rfl

theorem openNames_append (names more : List String) (next : Walk Unit) :
    (do openNames (names ++ more); next) = (do
      openNames names
      openNames more
      next) := by
  unfold openNames
  rw [Walk.forEach_append, bind_assoc]

/-- The context of a body behind names, of which the last one counts. -/
def contextUnder (w : Walker) (outer : String) (names : List String) : String :=
  (names.getLast?.map (w.contextOf true)).getD outer

variable {w : Walker} {see : Event → Option Event} {fields : Fields} {body : Option Json}
  {walk : String → Walk Unit} {flags : Nat} {v : Json}

/-- Whatever module has the body, its body is walked like this. -/
def WalksBody (w : Walker) (see : Event → Option Event) (body : Option Json)
    (walk : String → Walk Unit) : Prop :=
  ∀ fields, lookup "body" fields = body.getD .null →
    ∀ context, (w.innerBody fields context).Alike see Eq (walk context)

/-! ## Levels -/

/-- Whether a module counts as a namespace. -/
def isNamespace (w : Walker) (level : ModuleLevel) : Bool :=
  decide (commonBits level.flags w.namespaceFlags ≠ 0)

/-- The context of the body of a module. -/
def contextAt (w : Walker) (level : ModuleLevel) : String :=
  w.contextOf (w.isNamespace level) level.name

/-- A module is entered: a namespace is pushed. -/
def openLevel (w : Walker) (level : ModuleLevel) : Walk Unit :=
  if w.isNamespace level then Walk.push (.namespaceName (.str level.name)) else pure ()

/-- Modules are entered one inside the other. -/
def openLevels (w : Walker) (levels : List ModuleLevel) : Walk Unit :=
  Walk.forEach w.openLevel levels

/-- The context of the body of the innermost module. -/
def contextIn (w : Walker) (outer : String) (levels : List ModuleLevel) : String :=
  (levels.getLast?.map w.contextAt).getD outer

theorem contextIn_cons (w : Walker) (outer : String) (level : ModuleLevel)
    (rest : List ModuleLevel) :
    w.contextIn outer (level :: rest) = w.contextIn (w.contextAt level) rest := by
  unfold contextIn
  rw [List.getLast?_cons]
  cases rest.getLast? <;> rfl

/-- Entering namespaces is pushing their names. -/
theorem openLevels_namespaces {levels : List ModuleLevel}
    (h : ∀ level ∈ levels, w.isNamespace level = true) :
    w.openLevels levels = openNames (levels.map ModuleLevel.name) := by
  induction levels with
  | nil => rfl
  | cons level rest ih =>
    have hlevel : w.openLevel level = Walk.push (.namespaceName (.str level.name)) :=
      if_pos (h level (List.mem_cons_self ..))
    have hrest := ih fun l hl => h l (List.mem_cons_of_mem _ hl)
    unfold openLevels openNames at hrest ⊢
    rw [List.map_cons, Walk.forEach, Walk.forEach, hlevel, hrest]

theorem contextIn_namespaces {levels : List ModuleLevel}
    (h : ∀ level ∈ levels, w.isNamespace level = true) (outer : String) :
    w.contextIn outer levels = w.contextUnder outer (levels.map ModuleLevel.name) := by
  unfold contextIn contextUnder
  rw [List.getLast?_map]
  cases hlast : levels.getLast? with
  | none => rfl
  | some level =>
    have hlevel := h level (List.mem_of_getLast? hlast)
    show w.contextAt level = w.contextOf true level.name
    unfold contextAt
    rw [hlevel]

/-- A module is entered, and its body is walked under its name. -/
theorem statement_level (hsee : Event.Quiet see) (hkinds : w.kinds = .standard)
    {level : ModuleLevel} (hopens : Tree.Opens level.flags level.name body fields)
    (hname : level.name ≠ "") (context : Json) :
    (w.statement context (.obj fields)).Alike see Eq (do
      w.openLevel level
      w.innerBody fields (w.contextAt level)) := by
  have htext : Node.identifierText (lookup "name" fields) = some (.str level.name) :=
    Node.identifierText_of_ownText? (hopens.name.trans (Node.asText?_eq_some.mpr ⟨hname, rfl⟩))
  have hinner : w.innerContext (w.isNamespace level) (.str level.name) =
      .str (w.contextAt level) := by
    unfold innerContext contextAt contextOf
    split <;> rfl
  have henter : w.enterModule fields context = (do
      w.openLevel level
      pure (.str level.name, .str (w.contextAt level))) := by
    have hspace : decide (commonBits level.flags w.namespaceFlags ≠ 0) = w.isNamespace level := rfl
    unfold enterModule openLevel
    rw [htext, hopens.flags]
    dsimp only
    rw [flagsOf, Walk.ofExcept_ok, pure_bind, hspace, hinner]
    split
    · rfl
    · rfl
  rw [statement_obj, hkinds, KindTable.kindName_standard hopens.kind, Walk.ofExcept_ok, pure_bind]
  unfold dispatch
  show (w.enterModule fields context >>= w.moduleBody fields).Alike see Eq _
  rw [henter, bind_assoc]
  refine (Walk.alike_refl _).bind fun _ _ _ => ?_
  rw [pure_bind]
  -- the entry of the body in the log is not seen
  unfold moduleBody innerBody
  split
  · exact (Walk.alike_refl _).skip (hsee.logged _)
  · exact Walk.alike_refl _

/-- A module whose body is walked in a known way. -/
theorem level_open (hsee : Event.Quiet see) (hkinds : w.kinds = .standard) {level : ModuleLevel}
    (hmodule : Tree.IsModule level.flags level.name body v) (hname : level.name ≠ "")
    (hbody : w.WalksBody see body walk) (context : Json) :
    (w.statement context v).Alike see Eq (do
      w.openLevel level
      walk (w.contextAt level)) := by
  obtain ⟨fields, rfl, hopens⟩ := hmodule
  refine (statement_level hsee hkinds hopens hname context).trans ?_
  exact (Walk.alike_refl _).bind fun _ _ _ => hbody fields hopens.body _

/-- **The modules of the inner segments** are entered in order, and the body is walked under the
last one. -/
theorem innerModules_open (hsee : Event.Quiet see) (hkinds : w.kinds = .standard)
    (head nameHead : CstHead) (flags : Nat) {segments : List String}
    (hsegments : ∀ segment ∈ segments, segment ≠ "") (hbody : w.WalksBody see body walk) :
    w.WalksBody see (Tree.innerModules head nameHead flags segments body) (fun context => do
      w.openLevels (segments.map (⟨·, flags⟩))
      walk (w.contextIn context (segments.map (⟨·, flags⟩)))) := by
  induction segments with
  | nil =>
    intro fields hfields context
    show (w.innerBody fields context).Alike see Eq ((pure () : Walk Unit) >>= fun _ => walk context)
    rw [pure_bind]
    exact hbody fields hfields context
  | cons segment rest ih =>
    have hrest := ih fun s hs => hsegments s (List.mem_cons_of_mem _ hs)
    have hinner : Tree.IsModule flags segment (Tree.innerModules head nameHead flags rest body)
        (flagged .moduleDeclaration head flags
          [("name", Tree.identifierNamed nameHead segment),
           ("body", Tree.innerModules head nameHead flags rest body)]) :=
      Tree.isModule_inner (Tree.ownText_identifierNamed nameHead segment)
    have hsegment : (ModuleLevel.mk segment flags).name ≠ "" :=
      hsegments segment (List.mem_cons_self ..)
    intro fields hfields context
    have hwalk := level_open hsee hkinds hinner hsegment hrest (.str context)
    obtain ⟨inner, hnode, hopens⟩ := hinner
    rw [hnode] at hwalk
    rw [innerBody_module hkinds (hfields.trans hnode) hopens.kind]
    dsimp only
    rw [List.map_cons, contextIn_cons]
    unfold openLevels at hwalk ⊢
    rw [Walk.forEach, bind_assoc]
    exact hwalk

/-- A module with a dotted name enters a module for each segment, and the body is walked under the
last one. -/
theorem modules_open (hsee : Event.Quiet see) (hkinds : w.kinds = .standard) {first : ModuleLevel}
    {rest : List String} {head nameHead : CstHead}
    (hmodule : Tree.IsModule first.flags first.name
      (Tree.innerModules head nameHead flags rest body) v)
    (hfirst : first.name ≠ "") (hrest : ∀ segment ∈ rest, segment ≠ "")
    (hbody : w.WalksBody see body walk) (outer : String) (context : Json) :
    (w.statement context v).Alike see Eq (do
      w.openLevels (first :: rest.map (⟨·, flags⟩))
      walk (w.contextIn outer (first :: rest.map (⟨·, flags⟩)))) := by
  have hinner := innerModules_open hsee hkinds head nameHead flags hrest hbody
  have hwalk := level_open hsee hkinds hmodule hfirst hinner context
  unfold openLevels at hwalk ⊢
  rw [Walk.forEach, bind_assoc, contextIn_cons]
  exact hwalk

/-! ## Building a namespace -/

variable {source : Source} {c : SourceTree} {names : List String} {block : Option SourceTree}

/-- What a namespace is built into: a module for the first segment, with the modules of the others
around the body. -/
theorem moduleDeclaration_result (h : IsNamespace source names block c)
    (inherited : List ModifierKind) :
    ∃ nameHead first rest, names = first :: rest ∧
      (Tree.moduleDeclaration source c.head (c.children.map (Tree.readTree source))
        inherited).result = (do
        let body ← (Tree.block .moduleBlock (block.map (Tree.readTree source))).result
        let modifiers ← Tree.modifiers source inherited c.children
        .ok (flagged .moduleDeclaration c.head NodeFlag.namespaceModule.bit
          [("modifiers", modifiers), ("name", Tree.identifierNamed nameHead first),
           ("body", Tree.innerModules c.head nameHead
             (NodeFlag.namespaceModule.bit ||| NodeFlag.nestedNamespace.bit) rest body)])) := by
  obtain ⟨nameNode, text, hname, hstring, htext, hdotted⟩ := h.name
  have htype : (Tree.readTree source nameNode).type = nameNode.type :=
    congrArg CstHead.type (Tree.head_readTree nameNode)
  have hsegments := segments_of_isDotted h.nonempty hdotted
  cases names with
  | nil => exact absurd rfl h.nonempty
  | cons first rest =>
    refine ⟨nameNode.head, first, rest, rfl, ?_⟩
    unfold Tree.moduleDeclaration
    dsimp only
    rw [Built.result_bind, Tree.childAt?_readTree, Tree.childAt?_readTree, h.body, hname,
      Tree.modifiers_readTree]
    refine congrArg (Bind.bind _) (funext fun body => ?_)
    dsimp only [Option.map_some]
    rw [htype, if_neg hstring, Tree.head_readTree, htext, if_pos h.type, if_pos h.type]
    rw [Built.result_bind, Built.result_lift]
    -- the text of the name is known, and so are its segments
    have hknown : ∀ next : String → Decoded Json,
        ((.ok text : Decoded String) >>= next) = next text :=
      fun _ => rfl
    rw [hknown, hsegments]
    simp only [Built.result_bind, Built.result_lift, Built.result_pure]

/-- A namespace pushes the segments of its name, and its body is walked under the last one. `R` says
of the walk of the body whatever is known of it. -/
theorem moduleDeclaration_open (hsee : Event.Quiet see) (hkinds : w.kinds = .standard)
    (hmask : commonBits NodeFlag.namespaceModule.bit w.namespaceFlags ≠ 0)
    (h : IsNamespace source names block c) {R : (String → Walk Unit) → Prop}
    (hbody : Yields (Tree.block .moduleBlock (block.map (Tree.readTree source))).result fun body =>
      ∃ walk, R walk ∧ w.WalksBody see body walk) (inherited : List ModifierKind) :
    Yields (Tree.moduleDeclaration source c.head (c.children.map (Tree.readTree source))
      inherited).result fun v => ∃ walk, R walk ∧ ∀ context,
        (w.statement context v).Alike see Eq (do
          openNames names
          walk (w.contextUnder "" names)) := by
  obtain ⟨_, _, _, _, hdotted⟩ := h.name
  have hnonempty : ∀ name ∈ names, name ≠ "" := fun name hn => (hdotted.2.1 name hn).nonempty
  obtain ⟨nameHead, first, rest, rfl, hresult⟩ := moduleDeclaration_result h inherited
  rw [hresult]
  refine hbody.bind fun body ⟨walk, hR, hwalks⟩ => ?_
  refine (Tree.yields_any _).bind fun modifiers _ => Tree.yields_ok ⟨walk, hR, fun context => ?_⟩
  let outer : ModuleLevel := ⟨first, NodeFlag.namespaceModule.bit⟩
  let level (name : String) : ModuleLevel :=
    ⟨name, NodeFlag.namespaceModule.bit ||| NodeFlag.nestedNamespace.bit⟩
  have hmodule : Tree.IsModule outer.flags outer.name
      (Tree.innerModules c.head nameHead (level first).flags rest body)
      (flagged .moduleDeclaration c.head NodeFlag.namespaceModule.bit
        [("modifiers", modifiers), ("name", Tree.identifierNamed nameHead first),
         ("body", Tree.innerModules c.head nameHead (level first).flags rest body)]) :=
    Tree.isModule_outer (Tree.ownText_identifierNamed nameHead first)
  -- with the bit of a namespace in its flags, every segment is one
  have hspaces : ∀ l ∈ outer :: rest.map level, w.isNamespace l = true := by
    refine List.forall_mem_cons.mpr ⟨decide_eq_true hmask, List.forall_mem_map.mpr fun _ _ => ?_⟩
    exact decide_eq_true (commonBits_or hmask NodeFlag.nestedNamespace.bit)
  have hnames : (outer :: rest.map level).map ModuleLevel.name = first :: rest := by
    rw [List.map_cons, List.map_map]
    exact congrArg (first :: ·) (List.map_id rest)
  have hopen := modules_open hsee hkinds hmodule (hnonempty first (List.mem_cons_self ..))
    (fun name hn => hnonempty name (List.mem_cons_of_mem _ hn)) hwalks "" context
  rw [openLevels_namespaces hspaces, contextIn_namespaces hspaces, hnames] at hopen
  exact hopen

/-- A namespace can be built if its body and its modifiers can. -/
theorem moduleDeclaration_ok (h : IsNamespace source names block c) {body : Option Json}
    (hbody : (Tree.block .moduleBlock (block.map (Tree.readTree source))).result = .ok body)
    (hmodifiers : ModifiersDecode source c) :
    ∃ v, (Tree.moduleDeclaration source c.head (c.children.map (Tree.readTree source))
      []).result = .ok v := by
  obtain ⟨found, hfound⟩ := hmodifiers
  obtain ⟨_, _, _, -, hresult⟩ := moduleDeclaration_result h []
  rw [hresult, hbody, hfound]
  exact ⟨_, rfl⟩

/-- What a body without a block, or a block of statements, is built into. -/
theorem block_open (see : Event → Option Event) (hkinds : w.kinds = .standard) (source : Source)
    (block : Option SourceTree) :
    Yields (Tree.block .moduleBlock (block.map (Tree.readTree source))).result fun body =>
      ∃ us, bodyStatements source block = .ok us ∧
        w.WalksBody see body fun context => w.statements (.str context) us := by
  cases block with
  | none =>
    refine Tree.yields_ok ⟨[], rfl, fun fields hbody context => ?_⟩
    rw [innerBody_none hbody]
    exact Walk.alike_refl _
  | some d =>
    rw [Option.map_some, Tree.block, Built.result_bind]
    intro body hbody
    obtain ⟨us, hus, hblock⟩ := Tree.bind_eq_ok.mp hbody
    refine ⟨us, hus, fun fields hfields context => ?_⟩
    rw [← Except.ok.inj hblock] at hfields
    rw [innerBody_block hkinds hfields]
    exact Walk.alike_refl _

/-- A body can be built if its statements can. -/
theorem block_ok {us : List Json} (hus : bodyStatements source block = .ok us) :
    ∃ body, (Tree.block .moduleBlock (block.map (Tree.readTree source))).result = .ok body := by
  cases block with
  | none => exact ⟨none, rfl⟩
  | some d =>
    have hstatements :
        (Tree.statementsAmong (Tree.readTree source d).children).result = .ok us := hus
    rw [Option.map_some, Tree.block, Built.result_bind, hstatements]
    exact ⟨_, rfl⟩

/-- **Namespaces in one another** push all of their names, and the statements of the innermost body
are walked under the last name. -/
theorem opensNames_open (hsee : Event.Quiet see) (hkinds : w.kinds = .standard)
    (hmask : commonBits NodeFlag.namespaceModule.bit w.namespaceFlags ≠ 0)
    {nodes : List SourceTree} (h : OpensNames source nodes names block c) :
    Yields (Tree.moduleDeclaration source c.head (c.children.map (Tree.readTree source)) []).result
      fun v => ∃ us, bodyStatements source block = .ok us ∧ ∀ context,
        (w.statement context v).Alike see Eq (do
          openNames names
          w.statements (.str (w.contextUnder "" names)) us) := by
  induction h with
  | @single names block c h =>
    have hbody : Yields (Tree.block .moduleBlock (block.map (Tree.readTree source))).result
        fun body => ∃ walk, (∃ us, bodyStatements source block = .ok us ∧
          walk = fun context => w.statements (.str context) us) ∧ w.WalksBody see body walk :=
      (block_open see hkinds source block).mono fun _ ⟨us, hus, hwalks⟩ =>
        ⟨_, ⟨us, hus, rfl⟩, hwalks⟩
    refine (moduleDeclaration_open hsee hkinds hmask h hbody []).mono ?_
    rintro v ⟨_, ⟨us, hus, rfl⟩, hv⟩
    exact ⟨us, hus, hv⟩
  | @around nodes outer names block around inner c h honly hinner ih =>
    -- the one statement of the block opens the inner names, under whatever context
    have hbody : Yields (Tree.block .moduleBlock ((some around).map (Tree.readTree source))).result
        fun body => ∃ walk, (∃ us, bodyStatements source block = .ok us ∧ walk = fun _ => (do
          openNames names
          w.statements (.str (w.contextUnder "" names)) us)) ∧ w.WalksBody see body walk := by
      intro body hbody
      obtain ⟨vs, hvs, hwalks⟩ := block_open see hkinds source (some around) body hbody
      have hstatements : (Tree.statementsAmong (Tree.readTree source around).children).result =
          .ok vs := hvs
      rw [Tree.children_readTree, Tree.statementsAmong_only honly hinner.type] at hstatements
      obtain ⟨v, hv, rfl⟩ := Tree.map_eq_ok.mp hstatements
      obtain ⟨us, hus, halike⟩ := ih v hv
      refine ⟨_, ⟨us, hus, rfl⟩, fun fields hfields context => ?_⟩
      refine (hwalks fields hfields context).trans ?_
      dsimp only
      rw [statements_singleton]
      exact halike _
    refine (moduleDeclaration_open hsee hkinds hmask h hbody []).mono ?_
    rintro v ⟨_, ⟨us, hus, rfl⟩, hv⟩
    refine ⟨us, hus, fun context => ?_⟩
    have hlast : w.contextUnder "" (outer ++ names) = w.contextUnder "" names := by
      unfold contextUnder
      rw [List.getLast?_append_of_ne_nil _ hinner.nonempty]
    rw [openNames_append, hlast]
    exact hv context

/-- Namespaces in one another can be built if the statements of the innermost body and the modifiers
of each of them can. -/
theorem opensNames_ok {nodes : List SourceTree} (h : OpensNames source nodes names block c)
    (hmodifiers : ∀ n ∈ nodes, ModifiersDecode source n) {us : List Json}
    (hus : bodyStatements source block = .ok us) :
    ∃ v, (Tree.moduleDeclaration source c.head (c.children.map (Tree.readTree source))
      []).result = .ok v := by
  induction h with
  | single h =>
    obtain ⟨body, hbody⟩ := block_ok hus
    exact moduleDeclaration_ok h hbody (hmodifiers _ (List.mem_singleton_self _))
  | @around nodes outer names block around inner c h honly hinner ih =>
    obtain ⟨v, hv⟩ := ih (fun n hn => hmodifiers n (List.mem_cons_of_mem _ hn)) hus
    have hstatements : bodyStatements source (some around) = .ok [v] := by
      unfold bodyStatements
      dsimp only
      rw [Tree.children_readTree, Tree.statementsAmong_only honly hinner.type, hv]
      rfl
    obtain ⟨body, hbody⟩ := block_ok hstatements
    exact moduleDeclaration_ok h hbody (hmodifiers _ (List.mem_cons_self ..))

end Walker

end DeclCatalogue
