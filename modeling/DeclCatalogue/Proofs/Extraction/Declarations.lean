import DeclCatalogue.Proofs.Extraction.DeclaredNodes
import DeclCatalogue.Proofs.Extraction.Statements
import DeclCatalogue.Proofs.Tree.CommentsTree

/-!
# Declarations and what is extracted

With the standard kinds, an extraction that succeeds records exactly the declarations of the source,
in their order: `extractSource_declarations`. Which declarations a source has is said of its
concrete tree alone, by `declarationSites`.

Statements find the sites of the node that they were read from (`Walker.Finds`), under whatever
context they are walked, and the body of a module finds those in the body (`Walker.FindsIn`). One
induction over the concrete tree goes through exports, ambient declarations, expressions and modules
in any order; the modifiers that an export hands down show as the flag of the sites.
-/

namespace DeclCatalogue

open Json (lookup)
open Node (asText? ownName? ownText?)
open DeclCatalogue.Tree (make flagged Conforms AnyNode Yields Built)

namespace Sites

variable {α β : Type} {source : Source} {f : Cst α → Cst β}

/-! ## Children with other notes -/

theorem nameText_map (hf : ∀ c, (f c).head = c.head) (cs : List (Cst α)) :
    nameText source (cs.map f) = nameText source cs := by
  unfold nameText
  rw [Cst.childAt?_map hf, Tree.textOf?_map source hf]

theorem carriesExport_map (hf : ∀ c, (f c).head = c.head) (cs : List (Cst α)) :
    carriesExport source (cs.map f) = carriesExport source cs := by
  unfold carriesExport isExport
  rw [List.any_map]
  refine congrArg (cs.any ·) (funext fun c => ?_)
  rw [Function.comp_apply, Tree.modifierAt?_map source hf]

theorem valueOf?_map (hf : ∀ c, (f c).head = c.head) (cs : List (Cst α)) :
    valueOf? (cs.map f) = (valueOf? cs).map f := by
  unfold valueOf?
  rw [Cst.childAt?_map hf, Cst.tokens_map hf, Cst.named_map hf, Cst.withoutComments_map hf,
    List.head?_map, ← Tree.orElse_map]
  split <;> rfl

end Sites

namespace Walker

/-- Walking the statements records the sites of a context under it, if all of these have names. -/
def Finds (w : Walker) (statements : List Json) (sites : String → List DeclarationSite) : Prop :=
  ∀ context, (∀ site ∈ sites context, site.name ≠ "") →
    (w.statements (.str context) statements).Records (sites context)

/-- Walking a body records the sites of a context under it, if all of these have names. -/
def FindsIn (w : Walker) (body : Option Json) (sites : String → List DeclarationSite) : Prop :=
  ∀ fields, (Json.obj fields).EachObject Conforms → lookup "body" fields = body.getD .null →
    ∀ context, (∀ site ∈ sites context, site.name ≠ "") →
      (w.innerBody fields context).Records (sites context)

variable {w : Walker} {us vs : List Json} {v : Json} {sites others : String → List DeclarationSite}

/-! ## Statements -/

theorem finds_nil : w.Finds [] fun _ => [] :=
  fun _ _ => Walk.records_pure ()

theorem Finds.append (hus : w.Finds us sites) (hvs : w.Finds vs others) :
    w.Finds (us ++ vs) fun context => sites context ++ others context := by
  intro context hnamed
  rw [statements_append]
  have hfirst := hus context fun site hsite => hnamed site (List.mem_append_left _ hsite)
  have hrest := hvs context fun site hsite => hnamed site (List.mem_append_right _ hsite)
  exact hfirst.bind fun _ => hrest

theorem statements_singleton (w : Walker) (context : Json) (v : Json) :
    w.statements context [v] = w.statement context v := by
  rw [statements, statements]
  exact bind_pure_unit

/-- A statement that declares nothing. -/
theorem finds_nothing (hkinds : w.kinds = .standard) {kind : SyntaxKind}
    (hnothing : kind ∉ SyntaxKind.declaring) (head : CstHead)
    (fields : List (String × Option Json)) : w.Finds [make kind head fields] fun _ => [] := by
  intro context _
  rw [statements_singleton]
  exact (statement_declaresNothing hkinds rfl hnothing context).records

/-- A declaration is its own site. -/
theorem finds_declaration (hkinds : w.kinds = .standard) (hv : v.EachObject Conforms)
    {heading : Heading} {text : String} {exported : Bool}
    (h : Tree.IsDeclaration heading text exported v) :
    w.Finds [v] fun context => [⟨heading, text, context, exported⟩] := by
  obtain ⟨fields, rfl, hdeclares⟩ := h
  intro context hnamed
  have hne : text ≠ "" := hnamed _ (List.mem_singleton.mpr rfl)
  have hname : ownName? (lookup "name" fields) = some ⟨text, hne, hdeclares.formed⟩ :=
    (Node.ownName?_of_ownText? hdeclares.name).trans
      (Node.asName?_nameText ⟨text, hne, hdeclares.formed⟩)
  have hexported : (View.of w.kinds fields).exported = exported := by
    rw [hkinds]
    exact hdeclares.exported
  rw [statements_singleton]
  have hrecords := statement_records_declaration hkinds hv hdeclares.kind hname context
  rw [hexported] at hrecords
  exact hrecords

/-! ## Bodies -/

section InnerBody

variable {fields inner : Fields}

/-- A module without a body. -/
theorem innerBody_none (hbody : lookup "body" fields = .null) (context : String) :
    w.innerBody fields context = pure () := by
  unfold innerBody
  rw [hbody]
  rfl

/-- A body that is a block is walked statement by statement. -/
theorem innerBody_block (hkinds : w.kinds = .standard) {head : CstHead}
    (hbody : lookup "body" fields = make .moduleBlock head [("statements", some (.arr us))])
    (context : String) : w.innerBody fields context = w.statements (.str context) us := by
  have hpresent : (lookup "body" fields).truthy = true := by
    rw [hbody]
    rfl
  have hkind : KindTable.standard.kindName (lookup "body" fields) =
      .ok (some SyntaxKind.moduleBlock.name) := by
    rw [hbody]
    exact KindTable.kindName_standard rfl
  unfold innerBody
  rw [if_pos hpresent, bodyIn_eq _ _ _ hpresent, hkinds, hkind, Walk.ofExcept_ok, pure_bind,
    if_neg (by decide), hbody]
  exact tree_obj w (.str context) _

/-- A body that is a module itself is walked as a statement and not as a tree. -/
theorem innerBody_module (hkinds : w.kinds = .standard) (hbody : lookup "body" fields = .obj inner)
    (hkind : lookup "kind" inner = .int SyntaxKind.moduleDeclaration.code) (context : String) :
    w.innerBody fields context = w.statement (.str context) (.obj inner) := by
  have hpresent : (lookup "body" fields).truthy = true := by
    rw [hbody]
    exact truthy_of_kind hkind (by simp)
  unfold innerBody
  rw [if_pos hpresent, bodyIn_eq _ _ _ hpresent, hbody, hkinds,
    KindTable.kindName_standard hkind, Walk.ofExcept_ok, pure_bind, if_pos rfl]

end InnerBody

/-- No body, no sites. -/
theorem findsIn_none : w.FindsIn none fun _ => [] := by
  intro fields _ hbody context _
  rw [innerBody_none hbody]
  exact Walk.records_pure ()

/-- A block finds what its statements find. -/
theorem findsIn_block (hkinds : w.kinds = .standard) (head : CstHead) (h : w.Finds us sites) :
    w.FindsIn (some (make .moduleBlock head [("statements", some (.arr us))])) sites := by
  intro fields _ hbody context hnamed
  rw [innerBody_block hkinds hbody]
  exact h context hnamed

/-- A body that is a module itself. -/
theorem findsIn_module (hkinds : w.kinds = .standard) {flags : Nat} {text : String}
    {body : Option Json} (hv : Tree.IsModule flags text body v)
    (h : v.EachObject Conforms → w.Finds [v] sites) : w.FindsIn (some v) sites := by
  obtain ⟨inner, rfl, hopens⟩ := hv
  intro fields hfields hbody context hnamed
  have hbody : lookup "body" fields = .obj inner := hbody
  rw [innerBody_module hkinds hbody hopens.kind, ← statements_singleton]
  exact h (hbody ▸ hfields.lookup "body") context hnamed

/-- The context of the body of a module with a name. -/
def contextOf (w : Walker) (isNamespace : Bool) (name : String) : String :=
  if isNamespace then w.namespacePrefix ++ name else name

/-- **A module finds what its body finds,** in the context of the module. -/
theorem finds_module (hkinds : w.kinds = .standard) (hv : v.EachObject Conforms) {flags : Nat}
    {text : String} {body : Option Json} (hmodule : Tree.IsModule flags text body v)
    {isNamespace : Bool} (hflags : decide (commonBits flags w.namespaceFlags ≠ 0) = isNamespace)
    (hbody : w.FindsIn body sites) :
    w.Finds [v] fun _ => sites (w.contextOf isNamespace text) := by
  obtain ⟨fields, rfl, hopens⟩ := hmodule
  intro context hnamed
  rw [statements_singleton]
  refine statement_records_module hkinds hv hopens.kind (fun name hname => ?_) context
  have htext : name.val = text := by
    rw [Node.ownName?_of_ownText? hopens.name] at hname
    exact Node.val_of_asName? hname
  have hcontext : (View.of w.kinds fields).innerContext w name =
      w.contextOf isNamespace text := by
    -- the flag of a namespace decides which of the two contexts the body gets
    have hspace : (View.of w.kinds fields).isNamespace w = isNamespace := by
      unfold View.isNamespace
      show decide (commonBits (View.flagsOf (lookup "flags" fields)) w.namespaceFlags ≠ 0) = _
      rw [hopens.flags]
      exact hflags
    unfold View.innerContext contextOf
    rw [hspace, htext]
  rw [hcontext]
  exact hbody fields hv hopens.body _ hnamed

/-! ## Nodes of the concrete tree -/

/-- Whatever a node is read as, walking it records the declarations of the node. -/
def Accounts (w : Walker) (source : Source) (c : SourceTree) : Prop :=
  ∀ inherited, Yields ((Tree.readTree source c).note.statement inherited).result fun us =>
    w.Finds us fun context => (Sites.readTree source w.namespacePrefix c).note context
      (inherited.contains .exported)

variable {source : Source} {head : CstHead} {cs : List SourceTree} {inherited : List ModifierKind}

/-- The statements of nodes in a row. -/
theorem groups_find (h : ∀ c ∈ cs, w.Accounts source c) (inherited : List ModifierKind) :
    Yields (Tree.decodeEach (fun c : Tree.ReadNode => (c.note.statement inherited).result)
        (cs.map (Tree.readTree source))) fun groups =>
      w.Finds groups.flatten fun context =>
        (cs.map (Sites.readTree source w.namespacePrefix)).flatMap fun c =>
          c.note context (inherited.contains .exported) := by
  induction cs with
  | nil => exact Tree.yields_ok finds_nil
  | cons c rest ih =>
    rw [List.map_cons, Tree.decodeEach]
    refine (h c (List.mem_cons_self ..) inherited).bind fun us hus => ?_
    refine (ih fun d hd => h d (List.mem_cons_of_mem _ hd)).bind fun groups hgroups => ?_
    exact Tree.yields_pure (hus.append hgroups)

theorem statementsAmong_finds (h : ∀ c ∈ cs, w.Accounts source c) :
    Yields (Tree.statementsAmong (cs.map (Tree.readTree source))).result fun us =>
      w.Finds us fun context =>
        (Cst.named (cs.map (Sites.readTree source w.namespacePrefix))).flatMap fun c =>
          c.note context false := by
  unfold Tree.statementsAmong
  simp only [Built.result_bind, Built.result_forEach, Built.result_pure]
  rw [Tree.named_readTree, Cst.named_map (Sites.head_readTree source w.namespacePrefix)]
  have hnamed := groups_find (fun c (hc : c ∈ Cst.named cs) => h c (Cst.mem_of_mem_named hc)) []
  exact hnamed.bind fun groups hgroups => Tree.yields_ok hgroups

/-- A block finds the sites of its statements. -/
theorem block_finds (hkinds : w.kinds = .standard) {c : Option SourceTree}
    (h : ∀ d, c = some d → d.EachNode (w.Accounts source)) :
    Yields (Tree.block .moduleBlock (c.map (Tree.readTree source))).result fun body =>
      w.FindsIn body
        (Sites.inBody (c.map (Sites.readTree source w.namespacePrefix))) := by
  cases c with
  | none => exact Tree.yields_ok findsIn_none
  | some d =>
    have hchildren := fun e (he : e ∈ d.children) => ((h d rfl).child he).self
    rw [Option.map_some, Option.map_some, Tree.block]
    simp only [Built.result_bind, Built.result_pure]
    rw [Tree.children_readTree]
    refine (statementsAmong_finds hchildren).bind fun us hus => Tree.yields_ok ?_
    refine findsIn_block hkinds _ ?_
    unfold Sites.inBody
    rw [Cst.childrenOf, Sites.children_readTree]
    exact hus

/-! ## Modules -/

theorem contextOf_decide (w : Walker) (p : Prop) [Decidable p] (name : String) :
    w.contextOf (decide p) name = if p then w.namespacePrefix ++ name else name := by
  unfold contextOf
  simp only [decide_eq_true_eq]

/-- The context of the body of a module with a dotted name: only the last segment counts. -/
theorem contextOf_last (w : Walker) (isNamespace : Bool) (first : String) (rest : List String)
    (context : String) :
    ((first :: rest).getLast?.map (w.contextOf isNamespace)).getD context =
      (rest.getLast?.map (w.contextOf isNamespace)).getD (w.contextOf isNamespace first) := by
  rw [List.getLast?_cons]
  cases rest.getLast? <;> rfl

/-- The flags that modules and namespaces are made with tell them apart. -/
theorem isNamespace_flags (hspace : w.namespaceFlags = Settings.standard.namespaceFlags)
    (p : Prop) [Decidable p] :
    decide (commonBits (if p then NodeFlag.namespaceModule.bit else 0 : Nat)
        w.namespaceFlags ≠ 0) = decide p ∧
      decide (commonBits ((if p then NodeFlag.namespaceModule.bit else 0) |||
        if p then NodeFlag.nestedNamespace.bit else 0 : Nat) w.namespaceFlags ≠ 0) = decide p := by
  rw [hspace]
  by_cases h : p
  · rw [if_pos h, if_pos h, decide_eq_true h]
    decide
  · rw [if_neg h, if_neg h, decide_eq_false h]
    decide

/-- The modules of the inner segments of a name find what the innermost body finds, in the context
of the last segment. -/
theorem innerModules_find (hkinds : w.kinds = .standard) (head nameHead : CstHead) {flags : Nat}
    {isNamespace : Bool} (hflags : decide (commonBits flags w.namespaceFlags ≠ 0) = isNamespace)
    (segments : List String) {body : Option Json} (h : w.FindsIn body sites) :
    w.FindsIn (Tree.innerModules head nameHead flags segments body) fun context =>
      sites ((segments.getLast?.map (w.contextOf isNamespace)).getD context) := by
  -- the context of a segment is passed on only if it is the last one
  induction segments with
  | nil => exact h
  | cons segment rest ih =>
    have hinner : Tree.IsModule flags segment (Tree.innerModules head nameHead flags rest body)
        (flagged .moduleDeclaration head flags
          [("name", Tree.identifierNamed nameHead segment),
           ("body", Tree.innerModules head nameHead flags rest body)]) :=
      Tree.isModule_inner (Tree.ownText_identifierNamed nameHead segment)
    refine findsIn_module hkinds hinner fun hconforms => ?_
    simp only [contextOf_last]
    exact finds_module hkinds hconforms hinner hflags ih

/-- A module with a dotted name finds what the body finds, in the context of the last segment. -/
theorem dottedModule_finds (hkinds : w.kinds = .standard) {flags innerFlags : Nat}
    {isNamespace : Bool} (hflags : decide (commonBits flags w.namespaceFlags ≠ 0) = isNamespace)
    (hinner : decide (commonBits innerFlags w.namespaceFlags ≠ 0) = isNamespace) (first : String)
    (rest : List String) {head nameHead : CstHead} {modifiers body : Option Json}
    (hbody : w.FindsIn body sites)
    (hconforms : (flagged .moduleDeclaration head flags
      [("modifiers", modifiers), ("name", Tree.identifierNamed nameHead first),
       ("body", Tree.innerModules head nameHead innerFlags rest body)]).EachObject Conforms) :
    w.Finds [flagged .moduleDeclaration head flags
      [("modifiers", modifiers), ("name", Tree.identifierNamed nameHead first),
       ("body", Tree.innerModules head nameHead innerFlags rest body)]] fun _ =>
        sites (w.contextOf isNamespace (rest.getLast?.getD first)) := by
  have hmodules := innerModules_find hkinds head nameHead hinner rest hbody
  have hfinds := finds_module hkinds hconforms
    (Tree.isModule_outer (Tree.ownText_identifierNamed nameHead first)) hflags hmodules
  cases hlast : rest.getLast? with
  | none =>
    rw [hlast] at hfinds
    exact hfinds
  | some last =>
    rw [hlast] at hfinds
    exact hfinds

/-- A module finds the sites in its body, under the last segment of its name. -/
theorem moduleDeclaration_finds (hkinds : w.kinds = .standard)
    (hspace : w.namespaceFlags = Settings.standard.namespaceFlags)
    (h : ∀ c ∈ cs, c.EachNode (w.Accounts source)) :
    Yields (Tree.moduleDeclaration source head (cs.map (Tree.readTree source)) inherited).result
      fun v => v.EachObject Conforms → w.Finds [v] fun _ =>
        Sites.inModule source w.namespacePrefix head
          (cs.map (Sites.readTree source w.namespacePrefix)) := by
  have hflags := isNamespace_flags hspace (head.type = "internal_module")
  have hnothing : w.Finds [make .unknown head []] fun _ => [] :=
    finds_nothing hkinds (by decide) head []
  have hsites := Sites.head_readTree source w.namespacePrefix
  intro v hv hconforms
  obtain ⟨body, hread, hcases⟩ := Tree.moduleDeclaration_readTree hv
  have hbody := block_finds hkinds (fun d hd => h d (Cst.childAt?_mem hd)) body hread
  unfold Sites.inModule
  rw [Cst.childAt?_map hsites, Cst.childAt?_map hsites]
  cases hcases with
  | unnamed hname =>
    rw [hname]
    exact hnothing
  | quoted nameNode text modifiers hname htype htext =>
    have hcontext : Sites.moduleName? source nameNode.head = some (unquote text) := by
      unfold Sites.moduleName?
      rw [htext]
      exact if_pos htype
    rw [hname, Option.map_some, Option.bind_some, hsites, hcontext]
    dsimp only
    rw [← contextOf_decide]
    refine finds_module hkinds hconforms (Tree.isModule_outer ?_) hflags.1 hbody
    exact Tree.ownText_make .stringLiteral nameNode.head (unquote text)
  | segmentless nameNode text hname htype htext hsegments =>
    have hcontext : Sites.moduleName? source nameNode.head = none := by
      unfold Sites.moduleName?
      rw [htext]
      exact (if_neg htype).trans (congrArg List.getLast? hsegments)
    rw [hname, Option.map_some, Option.bind_some, hsites, hcontext]
    exact hnothing
  | dotted nameNode text first rest modifiers hname htype htext hsegments =>
    have hcontext : Sites.moduleName? source nameNode.head =
        some (rest.getLast?.getD first) := by
      unfold Sites.moduleName?
      rw [htext, ← List.getLast?_cons]
      exact (if_neg htype).trans (congrArg List.getLast? hsegments)
    rw [hname, Option.map_some, Option.bind_some, hsites, hcontext]
    dsimp only
    rw [← contextOf_decide]
    exact dottedModule_finds hkinds hflags.1 hflags.2 first rest hbody hconforms

/-! ## Single declarations -/

theorem conforming_children (source : Source) (cs : List SourceTree) :
    Tree.AllConforming (cs.map (Tree.readTree source)) := by
  intro c hc
  obtain ⟨d, -, rfl⟩ := List.mem_map.mp hc
  exact Tree.conforming_readTree source d

/-- What is built into a declaration finds that declaration. -/
theorem single_finds (hkinds : w.kinds = .standard) {heading : Heading} {x : Decoded Json}
    (hok : Yields x AnyNode)
    (h : Yields x (Tree.IsDeclaration heading
      (Sites.nameText source (cs.map (Tree.readTree source)))
      (inherited.contains .exported ||
        Sites.carriesExport source (cs.map (Tree.readTree source))))) :
    Yields x fun v => w.Finds [v] fun context => Sites.single source heading
      (cs.map (Sites.readTree source w.namespacePrefix)) context
        (inherited.contains .exported) := by
  intro v hv
  -- name and modifiers are the same, whatever the notes of the children are
  unfold Sites.single
  rw [Sites.nameText_map (Sites.head_readTree source w.namespacePrefix),
    Sites.carriesExport_map (Sites.head_readTree source w.namespacePrefix),
    ← Sites.nameText_map Tree.head_readTree, ← Sites.carriesExport_map Tree.head_readTree]
  exact finds_declaration hkinds (hok v hv).2 (h v hv)

/-! ## Exports -/

theorem exportValue_finds (hkinds : w.kinds = .standard) {modifiers : List ModifierKind}
    (hexported : modifiers.contains .exported = true) (children : List Tree.ReadNode)
    (value : SourceTree) :
    Yields (Tree.exportValue source head children modifiers (Tree.readTree source value)).result
      fun v => w.Finds [v]
        (Sites.ofValue source (Sites.readTree source w.namespacePrefix value)) := by
  have hok := conforming_children source value.children
  have htype : (Tree.readTree source value).type = value.head.type :=
    congrArg CstHead.type (Tree.head_readTree value)
  have hsite : (Sites.readTree source w.namespacePrefix value).type = value.head.type :=
    congrArg CstHead.type (Sites.head_readTree source w.namespacePrefix value)
  unfold Tree.exportValue Sites.ofValue
  dsimp only
  rw [htype, hsite, Tree.children_readTree, Sites.children_readTree, Tree.childAt?_readTree,
    Cst.childAt?_map (Sites.head_readTree source w.namespacePrefix), Option.isSome_map,
    Option.isSome_map]
  split
  · rw [← hexported]
    exact single_finds hkinds (Tree.classDeclaration_ok hok) Tree.classDeclaration_declares
  split
  · rw [← hexported]
    exact single_finds hkinds (Tree.functionDeclaration_ok hok) Tree.functionDeclaration_declares
  · simp only [Built.result_bind, Built.result_lift, Built.result_pure]
    refine (Tree.yields_any _).bind fun expression _ => ?_
    exact Tree.yields_ok (finds_nothing hkinds (by decide) head _)

/-- An export of names declares nothing. -/
theorem exportDeclaration_finds (hkinds : w.kinds = .standard) (children : List Tree.ReadNode) :
    Yields (Tree.exportDeclaration source head children) fun v => w.Finds [v] fun _ => [] := by
  unfold Tree.exportDeclaration
  refine (Tree.yields_any _).bind fun clause _ => ?_
  dsimp only
  split
  · exact Tree.yields_pure (finds_nothing hkinds (by decide) head [])
  · split
    · exact (Tree.yields_any _).bind fun module _ =>
        Tree.yields_pure (finds_nothing hkinds (by decide) head _)
    · exact (Tree.yields_any _).bind fun module _ =>
        Tree.yields_pure (finds_nothing hkinds (by decide) head _)

/-- An export finds what it exports. -/
theorem exportStatement_finds (hkinds : w.kinds = .standard)
    (h : ∀ c ∈ cs, c.EachNode (w.Accounts source)) :
    Yields (Tree.exportStatement source head (cs.map (Tree.readTree source)) inherited).result
      fun us => w.Finds us
        (Sites.inExport source (cs.map (Sites.readTree source w.namespacePrefix))) := by
  -- whatever is handed down has an export modifier in it
  have hexported : (Tree.exportModifiers inherited
      (cs.map (Tree.readTree source))).contains .exported = true := by
    unfold Tree.exportModifiers
    simp
  have hvalue : Tree.exportedValue? (cs.map (Tree.readTree source)) =
      (Sites.valueOf? cs).map (Tree.readTree source) :=
    Sites.valueOf?_map Tree.head_readTree cs
  unfold Tree.exportStatement Sites.inExport
  dsimp only
  rw [Tree.childAt?_readTree, Cst.childAt?_map (Sites.head_readTree source w.namespacePrefix),
    hvalue, Sites.valueOf?_map (Sites.head_readTree source w.namespacePrefix)]
  cases hdeclaration : Cst.childAt? "declaration" cs with
  | some declaration =>
    have hfinds := (h declaration (Cst.childAt?_mem hdeclaration)).self
      (Tree.exportModifiers inherited (cs.map (Tree.readTree source)))
    rw [hexported] at hfinds
    exact hfinds
  | none =>
    cases Sites.valueOf? cs with
    | some value =>
      simp only [Option.map_some, Option.map_none, Built.result_bind, Built.result_pure]
      refine (exportValue_finds hkinds hexported _ value).bind fun v hv => ?_
      exact Tree.yields_ok hv
    | none =>
      simp only [Option.map_none, Built.result_bind, Built.result_lift, Built.result_pure]
      refine (exportDeclaration_finds hkinds _).bind fun v hv => ?_
      exact Tree.yields_ok hv

/-! ## Ambient declarations and expressions -/

/-- An ambient declaration finds the sites of what it declares. -/
theorem ambientDeclaration_finds (hkinds : w.kinds = .standard)
    (hspace : w.namespaceFlags = Settings.standard.namespaceFlags)
    (h : ∀ c ∈ cs, c.EachNode (w.Accounts source)) :
    Yields (Tree.ambientDeclaration head (cs.map (Tree.readTree source)) inherited).result
      fun us => Tree.NodesOk us → w.Finds us fun context =>
        Sites.inAmbient (cs.map (Sites.readTree source w.namespacePrefix)) context
          (inherited.contains .exported) := by
  have hglobal : ∀ {β : Type} {f : SourceTree → Cst β}, (∀ c, (f c).head = c.head) →
      ((cs.map f).any fun c => c.type = "global") = cs.any fun c => c.type = "global" :=
    fun hf => Cst.any_type_map hf (fun t => decide (t = "global")) cs
  have hsites := Sites.head_readTree source w.namespacePrefix
  unfold Tree.ambientDeclaration Sites.inAmbient
  dsimp only
  rw [hglobal Tree.head_readTree, hglobal hsites, Tree.childOfType?_readTree,
    Cst.childOfType?_map hsites, Tree.withoutComments_readTree, Cst.named_map hsites,
    Cst.withoutComments_map hsites]
  split
  · -- the global scope is a module, and no namespace
    have hblock : ∀ d, Cst.childOfType? ["statement_block"] cs = some d →
        d.EachNode (w.Accounts source) := fun d hd => h d (Cst.childOfType?_mem hd)
    have hflags :
        decide (commonBits NodeFlag.globalAugmentation.bit w.namespaceFlags ≠ 0) = false := by
      rw [hspace]
      decide
    simp only [Built.result_bind, Built.result_pure]
    refine (block_finds hkinds hblock).bind fun body hbody => Tree.yields_ok fun hok => ?_
    have hconforms := (hok _ (List.mem_cons_self ..)).2
    exact finds_module hkinds hconforms
      (Tree.isModule_outer (Tree.ownText_identifierNamed head "global")) hflags hbody
  · -- to declare a thing is not to export it
    have hmodifiers : (inherited ++ [ModifierKind.declared]).contains .exported =
        inherited.contains .exported := by
      simp
    have hinner : ∀ c ∈ Cst.withoutComments (Cst.named cs), w.Accounts source c :=
      fun c hc => (h c (Cst.mem_of_mem_named (List.mem_filter.mp hc).1)).self
    simp only [Built.result_bind, Built.result_forEach, Built.result_pure]
    refine (groups_find hinner (inherited ++ [.declared])).bind fun groups hgroups => ?_
    rw [hmodifiers] at hgroups
    exact Tree.yields_ok fun _ => hgroups

/-- A statement of an expression declares nothing. -/
theorem plainExpression_finds (hkinds : w.kinds = .standard) (inner : List Tree.ReadNode) :
    Yields (Tree.expressionStatement.plain head inner).result fun us => w.Finds us fun _ => [] := by
  unfold Tree.expressionStatement.plain
  simp only [Built.result_bind, Built.result_lift, Built.result_pure]
  refine (Tree.yields_any _).bind fun expression _ => ?_
  exact Tree.yields_ok (finds_nothing hkinds (by decide) head _)

/-- A module is read as a statement by itself. -/
theorem readTree_module {c : SourceTree}
    (htype : c.head.type = "internal_module" ∨ c.head.type = "module")
    (inherited : List ModifierKind) :
    ((Tree.readTree source c).note.statement inherited).result =
      (do return [← Tree.moduleDeclaration source c.head (c.children.map (Tree.readTree source))
        inherited] : Built (List Json)).result := by
  have hshape : Tree.StatementShape.ofType c.head.type = .module := by
    rcases htype with htype | htype
    · rw [htype]; rfl
    · rw [htype]; rfl
  rw [Tree.note_readTree]
  show (Tree.statement source c.head _ inherited).result = _
  unfold Tree.statement
  rw [hshape]

/-- A module in the place of an expression finds the sites in its body. -/
theorem expressionStatement_finds (hkinds : w.kinds = .standard)
    (h : ∀ c ∈ cs, c.EachNode (w.Accounts source)) :
    Yields (Tree.expressionStatement source head (cs.map (Tree.readTree source)) inherited).result
      fun us => w.Finds us fun context =>
        Sites.inExpression (cs.map (Sites.readTree source w.namespacePrefix)) context
          (inherited.contains .exported) := by
  have hsites := Sites.head_readTree source w.namespacePrefix
  have hinner : ∀ c ∈ Cst.withoutComments (Cst.named cs), w.Accounts source c :=
    fun c hc => (h c (Cst.mem_of_mem_named (List.mem_filter.mp hc).1)).self
  unfold Tree.expressionStatement Sites.inExpression
  dsimp only
  rw [Tree.withoutComments_readTree, Cst.named_map hsites, Cst.withoutComments_map hsites]
  revert hinner
  generalize Cst.withoutComments (Cst.named cs) = inner
  intro hinner
  -- only a child that stands alone can be a module
  match inner, hinner with
  | [], _ => exact plainExpression_finds hkinds _
  | [only], hinner =>
    have hread : (Tree.readTree source only).type = only.head.type :=
      congrArg CstHead.type (Tree.head_readTree only)
    have hsite : (Sites.readTree source w.namespacePrefix only).type = only.head.type :=
      congrArg CstHead.type (hsites only)
    rw [List.map_singleton, List.map_singleton]
    dsimp only
    rw [hread, hsite]
    split
    next htype =>
      have honly := hinner only (List.mem_cons_self ..) inherited
      rw [readTree_module htype] at honly
      rw [Tree.head_readTree, Tree.children_readTree]
      exact honly
    next => exact plainExpression_finds hkinds _
  | _ :: _ :: _, _ => exact plainExpression_finds hkinds _

/-! ## Statements of every kind -/

/-- A statement that becomes one node. -/
private theorem finds_one {x : Decoded Json} {sites : String → List DeclarationSite}
    (h : Yields x fun v => w.Finds [v] sites) :
    Yields (do return [← x]) fun us => w.Finds us sites :=
  h.bind fun _ hv => Tree.yields_pure hv

theorem plainStatement_nothing {type : String} {kind : SyntaxKind}
    (h : Tree.StatementShape.ofType type = .plain kind) : kind ∉ SyntaxKind.declaring := by
  unfold Tree.StatementShape.ofType at h
  split at h <;> cases h <;> decide

/-- **Every statement finds the sites of its node.** -/
theorem statement_finds (hkinds : w.kinds = .standard)
    (hspace : w.namespaceFlags = Settings.standard.namespaceFlags)
    (h : ∀ c ∈ cs, c.EachNode (w.Accounts source)) :
    Yields (Tree.statement source head (cs.map (Tree.readTree source)) inherited).result
      fun us => w.Finds us fun context =>
        Sites.ofStatement source w.namespacePrefix head
          (cs.map (Sites.readTree source w.namespacePrefix)) context
          (inherited.contains .exported) := by
  have hok := conforming_children source cs
  unfold Tree.statement Sites.ofStatement
  cases hshape : Tree.StatementShape.ofType head.type with
  | function =>
    simp only [Built.result_bind, Built.result_pure]
    exact finds_one (single_finds hkinds (Tree.functionDeclaration_ok hok)
      Tree.functionDeclaration_declares)
  | classBody =>
    simp only [Built.result_bind, Built.result_pure]
    exact finds_one (single_finds hkinds (Tree.classDeclaration_ok hok)
      Tree.classDeclaration_declares)
  | interface =>
    simp only [Built.result_bind, Built.result_lift, Built.result_pure]
    exact finds_one (single_finds hkinds (Tree.interfaceDeclaration_ok hok)
      Tree.interfaceDeclaration_declares)
  | typeAlias =>
    simp only [Built.result_bind, Built.result_lift, Built.result_pure]
    exact finds_one (single_finds hkinds (Tree.typeAliasDeclaration_ok hok)
      Tree.typeAliasDeclaration_declares)
  | enumeration =>
    simp only [Built.result_bind, Built.result_lift, Built.result_pure]
    refine finds_one ?_
    unfold Tree.enumDeclaration
    refine (Tree.yields_any _).bind fun modifiers _ => (Tree.yields_any _).bind fun name _ => ?_
    exact Tree.yields_pure (finds_nothing hkinds (by decide) head _)
  | variableList =>
    simp only [Built.result_bind, Built.result_lift, Built.result_pure]
    refine finds_one ((Tree.yields_any _).bind fun declarations _ => ?_)
    exact Tree.yields_pure (finds_nothing hkinds (by decide) head _)
  | importing =>
    simp only [Built.result_bind, Built.result_lift, Built.result_pure]
    refine finds_one ?_
    unfold Tree.importDeclaration
    split
    · exact Tree.yields_ok (finds_nothing hkinds (by decide) head _)
    · refine (Tree.yields_any _).bind fun clause _ => (Tree.yields_any _).bind fun module _ => ?_
      exact Tree.yields_pure (finds_nothing hkinds (by decide) head _)
  | exporting => exact exportStatement_finds hkinds h
  | ambient =>
    intro us hus
    exact ambientDeclaration_finds hkinds hspace h us hus (Tree.ambientDeclaration_ok hok us hus)
  | module =>
    simp only [Built.result_bind, Built.result_pure]
    refine finds_one fun v hv => ?_
    exact moduleDeclaration_finds hkinds hspace h v hv (Tree.moduleDeclaration_ok hok v hv).2
  | expression => exact expressionStatement_finds hkinds h
  | comment => exact Tree.yields_ok finds_nil
  | plain kind =>
    exact Tree.yields_ok (finds_nothing hkinds (plainStatement_nothing hshape) head [])
  | other => exact Tree.yields_ok (finds_nothing hkinds (by decide) head [])

/-- **Every node of a tree finds its sites.** -/
theorem accounts_readTree (hkinds : w.kinds = .standard)
    (hspace : w.namespaceFlags = Settings.standard.namespaceFlags) (source : Source)
    (tree : SourceTree) : tree.EachNode (w.Accounts source) := by
  -- the modifiers that are handed down vary from one level to the next, so they are not fixed here
  induction tree using Cst.induct with
  | node head note cs ih =>
    refine Cst.eachNode_node.mpr ⟨fun inherited => ?_, ih⟩
    rw [Tree.note_readTree, Sites.note_readTree]
    exact statement_finds hkinds hspace ih

end Walker

/-! ## Extractions -/

namespace World

/-- **An extraction records exactly the declarations of the source.** With the standard kinds and
flags, if an extraction succeeds and every declaration of the source has a name, the declarations
that are pushed are those of the source: one for each, in the order of the source, with its kind,
its name, the context that it stands in, and exported exactly if it is. -/
theorem extractSource_declarations (world : World) (settings : Settings)
    (hkinds : settings.kindTable world.files = .ok .standard)
    (hspace : settings.namespaceFlags = Settings.standard.namespaceFlags) (bytes : ByteArray)
    (module fileName : Option String) (tsx : Option Bool) (drawn : Nat)
    (hok : (world.extractSource settings bytes module fileName tsx drawn).result = .ok ())
    (hnamed : ∀ site ∈ declarationSites ⟨bytes⟩ settings.namespacePrefix
      (settings.topContext module) (world.parsed settings bytes tsx).root, site.name ≠ "") :
    List.Forall₂ DeclarationSite.RecordedBy
      (declarationSites ⟨bytes⟩ settings.namespacePrefix (settings.topContext module)
        (world.parsed settings bytes tsx).root)
      (Event.declared (world.extractSource settings bytes module fileName tsx drawn).events) := by
  refine (extractSource_alike world settings bytes module fileName tsx).records ?_ drawn () hok
  unfold statementWalk
  by_cases hrefuses : world.Refuses settings bytes tsx
  · rw [if_pos hrefuses]
    exact Walk.records_fail _
  · rw [if_neg hrefuses]
    cases htop : world.topStatements settings bytes tsx with
    | error fault => exact Walk.records_fail _
    | ok statements =>
      dsimp only
      rw [hkinds, Walk.ofExcept_ok, pure_bind]
      unfold topStatements at htop
      rw [Tree.children_readTree] at htop
      have hchildren := fun c (hc : c ∈ (world.parsed settings bytes tsx).root.children) =>
        (Walker.accounts_readTree (w := settings.walker .standard world.tokens) rfl hspace
          ⟨bytes⟩ c).self
      have hfinds := Walker.statementsAmong_finds hchildren statements htop
      unfold declarationSites at hnamed ⊢
      rw [Sites.children_readTree] at hnamed ⊢
      exact hfinds _ hnamed

/-- The tree of a source in which a class is exported from a namespace. -/
def exportedClass : SourceTree :=
  .node ⟨"program", true, none, 0, 35⟩ ()
    [.node ⟨"expression_statement", true, none, 0, 35⟩ ()
      [.node ⟨"internal_module", true, none, 0, 35⟩ ()
        [.node ⟨"nested_identifier", true, some "name", 10, 13⟩ () [],
         .node ⟨"statement_block", true, some "body", 14, 35⟩ ()
          [.node ⟨"export_statement", true, none, 16, 33⟩ ()
            [.node ⟨"export", false, none, 16, 22⟩ () [],
             .node ⟨"class_declaration", true, some "declaration", 23, 33⟩ ()
              [.node ⟨"type_identifier", true, some "name", 29, 30⟩ () [],
               .node ⟨"class_body", true, some "body", 31, 33⟩ () []]]]]]]

/-- A class that is exported from a namespace. -/
theorem extractSource_declarations_namespace :
    let world := always exportedClass
    let source := "namespace A.B { export class C {} }".toUTF8
    List.Forall₂ DeclarationSite.RecordedBy [⟨.classes, "C", "npm$namespace$B", true⟩]
      (Event.declared (world.extractSource Settings.standard source none none none 0).events) := by
  intro world source
  have hsites : declarationSites ⟨source⟩ Settings.standard.namespacePrefix
      (Settings.standard.topContext none) (world.parsed Settings.standard source none).root =
        [⟨.classes, "C", "npm$namespace$B", true⟩] := by
    decide +kernel
  have hok : (world.extractSource Settings.standard source none none none 0).result = .ok () := by
    have hsuccess : (world.extractSource Settings.standard source none none none 0).result.isOk =
        true := by
      decide +kernel
    cases hresult : (world.extractSource Settings.standard source none none none 0).result with
    | ok value => rfl
    | error fault =>
      rw [hresult] at hsuccess
      cases hsuccess
  have hkinds : Settings.standard.kindTable world.files = .ok .standard := rfl
  have hnamed : ∀ site ∈ declarationSites ⟨source⟩ Settings.standard.namespacePrefix
      (Settings.standard.topContext none) (world.parsed Settings.standard source none).root,
      site.name ≠ "" := by
    rw [hsites]
    decide
  have hrecorded := extractSource_declarations world Settings.standard hkinds rfl source none none
    none 0 hok hnamed
  rw [hsites] at hrecorded
  exact hrecorded

/-- A module whose body is looked into. -/
def innerModule : SourceTree :=
  .node ⟨"module", true, none, 9, 37⟩ ()
    [.node ⟨"identifier", true, some "name", 16, 17⟩ () [],
     .node ⟨"statement_block", true, some "body", 18, 37⟩ ()
      [.node ⟨"function_declaration", true, none, 20, 35⟩ ()
        [.node ⟨"identifier", true, some "name", 29, 30⟩ () []]]]

/-- In the body of a module without a name nothing is recorded, not even what stands in a module
with a name there. -/
theorem extractSource_declarations_unnamed :
    let world := always (.node ⟨"program", true, none, 0, 39⟩ ()
      [.node ⟨"module", true, none, 0, 39⟩ ()
        [.node ⟨"statement_block", true, some "body", 7, 39⟩ () [innerModule]]])
    let source := "module { module B { function f() {} } }".toUTF8
    let outcome := world.extractSource Settings.standard source none none none 0
    let sites := (Sites.readTree ⟨source⟩ Settings.standard.namespacePrefix innerModule).note
      Settings.standard.rootContext false
    outcome.result.isOk = true ∧ sites = [⟨.functions, "f", "B", false⟩] ∧
      ¬ List.Forall₂ DeclarationSite.RecordedBy sites (Event.declared outcome.events) := by
  intro world source outcome sites
  have hok : outcome.result.isOk = true := by decide +kernel
  have hsites : sites = [⟨.functions, "f", "B", false⟩] := by decide +kernel
  have hnone : Event.declared outcome.events = [] := by decide +kernel
  refine ⟨hok, hsites, fun hrecorded => ?_⟩
  rw [hsites, hnone] at hrecorded
  cases hrecorded

end World

end DeclCatalogue
