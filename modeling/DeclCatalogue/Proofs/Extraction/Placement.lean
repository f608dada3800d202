import DeclCatalogue.Extraction
import DeclCatalogue.Proofs.Cst.Comments
import DeclCatalogue.Proofs.Cst.EachNode

/-!
# How concrete nodes stand around one another

What a node is among statements, said of the concrete tree alone. An export of a declaration, an
ambient declaration, a comment and an expression that is a module stand around other statements and
are none themselves; a module with a name opens a scope for the statements in its body; any other
node is a statement by itself. `Placement.of` tells these apart. What a node is depends on its type
and on those of its children, and for a module on the text of its name (`Placement.of_map`).
-/

namespace DeclCatalogue

/-- One of the modules that a name makes: one segment, and the flags that it is made with. -/
structure ModuleLevel where
  name : String
  flags : Nat
  deriving DecidableEq, Repr

/-- How a node stands among statements. -/
inductive Placement (α : Type) where
  /-- A statement by itself. -/
  | itself
  /-- Around other statements, to which these modifiers are handed down. -/
  | around (modifiers : List ModifierKind) (inner : List (Cst α))
  /-- Modules in one another around a body. -/
  | opening (levels : List ModuleLevel) (body : Option (Cst α))

namespace Placement

variable {α β : Type}

/-- The names of the modules that a node names: the segments of a dotted name, or what stands
between quotes. -/
def moduleNames (source : Source) (nameNode : CstHead) : List String :=
  match source.text nameNode with
  | .error _ => []
  | .ok text =>
    if nameNode.type = "string" then [unquote text].filter fun name => name ≠ "" else segments text

/-- The flags of the outermost module of a node. -/
def outerFlags (head : CstHead) : Nat :=
  if head.type = "internal_module" then NodeFlag.namespaceModule.bit else 0

/-- The flags of the modules inside it, which are marked as nested if they are namespaces. -/
def innerFlags (head : CstHead) : Nat :=
  outerFlags head ||| if head.type = "internal_module" then NodeFlag.nestedNamespace.bit else 0

/-- A module or a namespace, one for each of its names. Without a name it is a statement like any
other. -/
def ofModule (source : Source) (head : CstHead) (children : List (Cst α)) : Placement α :=
  match Cst.childAt? "name" children with
  | none => .itself
  | some nameNode =>
    match moduleNames source nameNode.head with
    | [] => .itself
    | first :: rest =>
      .opening (⟨first, outerFlags head⟩ :: rest.map fun name => ⟨name, innerFlags head⟩)
        (Cst.childAt? "body" children)

/-- An export stands around the declaration that it exports, if it exports one. -/
def ofExport (children : List (Cst α)) : Placement α :=
  match Cst.childAt? "declaration" children with
  | none => .itself
  | some declaration =>
    .around (.exported :: if (Cst.tokens children).contains "default" then [.default] else [])
      [declaration]

/-- An ambient declaration stands around what it declares, or opens the global scope. -/
def ofAmbient (children : List (Cst α)) : Placement α :=
  if children.any fun c => c.type = "global" then
    .opening [⟨"global", NodeFlag.globalAugmentation.bit⟩]
      (Cst.childOfType? ["statement_block"] children)
  else .around [.declared] (Cst.withoutComments (Cst.named children))

/-- An expression that is a single module stands around it. -/
def ofExpression (children : List (Cst α)) : Placement α :=
  match Cst.withoutComments (Cst.named children) with
  | [only] =>
    if only.type = "internal_module" ∨ only.type = "module" then .around [] [only] else .itself
  | _ => .itself

/-- The placement of a node by its type and its children. -/
def of (source : Source) (head : CstHead) (children : List (Cst α)) : Placement α :=
  match Tree.StatementShape.ofType head.type with
  | .comment => .around [] []
  | .exporting => ofExport children
  | .ambient => ofAmbient children
  | .module => ofModule source head children
  | .expression => ofExpression children
  | _ => .itself

/-- Between quotes there is one name, if there is anything. -/
theorem moduleNames_quoted {source : Source} {nameNode : CstHead} {text : String}
    (htype : nameNode.type = "string") (htext : source.text nameNode = .ok text) :
    moduleNames source nameNode = [unquote text].filter fun name => name ≠ "" := by
  unfold moduleNames
  rw [htext]
  exact if_pos htype

/-- A name without quotes is as many names as it has segments. -/
theorem moduleNames_dotted {source : Source} {nameNode : CstHead} {text : String}
    (htype : nameNode.type ≠ "string") (htext : source.text nameNode = .ok text) :
    moduleNames source nameNode = segments text := by
  unfold moduleNames
  rw [htext]
  exact if_neg htype

/-- No name of a module is empty. -/
theorem moduleNames_ne_empty {source : Source} {nameNode : CstHead} :
    ∀ name ∈ moduleNames source nameNode, name ≠ "" := by
  intro name hname
  unfold moduleNames at hname
  split at hname
  · cases hname
  · split at hname
    · exact of_decide_eq_true (List.mem_filter.mp hname).2
    · unfold segments at hname
      exact of_decide_eq_true (List.mem_filter.mp hname).2

/-- A module that is opened has a name that can be decoded. -/
theorem ofModule_opening {source : Source} {head : CstHead} {children : List (Cst α)}
    {levels : List ModuleLevel} {body : Option (Cst α)}
    (h : ofModule source head children = .opening levels body) :
    ∃ nameNode first rest, Cst.childAt? "name" children = some nameNode ∧
      moduleNames source nameNode.head = first :: rest ∧
      levels = ⟨first, outerFlags head⟩ :: rest.map (⟨·, innerFlags head⟩) ∧
      body = Cst.childAt? "body" children := by
  unfold ofModule at h
  split at h
  · cases h
  next nameNode hname =>
    split at h
    · cases h
    next first rest hnames =>
      obtain ⟨rfl, rfl⟩ := Placement.opening.inj h
      exact ⟨nameNode, first, rest, hname, hnames, rfl, rfl⟩

/-- The nodes that a placement leads to. -/
def inner : Placement α → List (Cst α)
  | .itself => []
  | .around _ inner => inner
  | .opening _ body => body.toList

/-- A placement leads to children of the node. -/
theorem mem_of_inner {source : Source} {head : CstHead} {children : List (Cst α)} :
    ∀ c ∈ (of source head children).inner, c ∈ children := by
  have hmem : ∀ {o : Option (Cst α)}, (∀ c, o = some c → c ∈ children) →
      ∀ c ∈ o.toList, c ∈ children := fun h c hc => h c (Option.mem_toList.mp hc)
  have hnamed : ∀ c ∈ Cst.withoutComments (Cst.named children), c ∈ children :=
    fun c hc => Cst.mem_of_mem_named (List.mem_filter.mp hc).1
  intro c hc
  unfold of at hc
  split at hc
  · cases hc
  · unfold ofExport at hc
    split at hc
    · cases hc
    next declaration hdeclaration =>
      rw [List.mem_singleton.mp hc]
      exact Cst.childAt?_mem hdeclaration
  · unfold ofAmbient at hc
    split at hc
    · exact hmem (fun _ => Cst.childOfType?_mem) c hc
    · exact hnamed c hc
  · unfold ofModule at hc
    split at hc
    · cases hc
    · split at hc
      · cases hc
      · exact hmem (fun _ => Cst.childAt?_mem) c hc
  · unfold ofExpression at hc
    split at hc
    next only honly =>
      split at hc
      · rw [List.mem_singleton.mp hc]
        exact hnamed only (honly ▸ List.mem_singleton_self only)
      · cases hc
    next => cases hc
  · cases hc

theorem mem_of_around {source : Source} {head : CstHead} {children : List (Cst α)}
    {modifiers : List ModifierKind} {inner : List (Cst α)}
    (h : of source head children = .around modifiers inner) : ∀ c ∈ inner, c ∈ children := by
  intro c hc
  have hmem : c ∈ (of source head children).inner := by
    rw [h]
    exact hc
  exact mem_of_inner c hmem

theorem mem_of_opening {source : Source} {head : CstHead} {children : List (Cst α)}
    {levels : List ModuleLevel} {body : Option (Cst α)}
    (h : of source head children = .opening levels body) : ∀ c, body = some c → c ∈ children := by
  intro c hc
  have hmem : c ∈ (of source head children).inner := by
    rw [h]
    exact Option.mem_toList.mpr hc
  exact mem_of_inner c hmem

/-- The same placement of other nodes. -/
def map (f : Cst α → Cst β) : Placement α → Placement β
  | .itself => .itself
  | .around modifiers inner => .around modifiers (inner.map f)
  | .opening levels body => .opening levels (body.map f)

variable {f : Cst α → Cst β}

/-- What a node is among statements does not depend on the notes of its children. -/
theorem of_map (hf : ∀ c, (f c).head = c.head) (source : Source) (head : CstHead)
    (children : List (Cst α)) :
    of source head (children.map f) = (of source head children).map f := by
  have hglobal : ((children.map f).any fun c => c.type = "global") =
      children.any fun c => c.type = "global" :=
    Cst.any_type_map hf (fun t => decide (t = "global")) children
  unfold of
  split
  · rfl
  · unfold ofExport
    rw [Cst.childAt?_map hf, Cst.tokens_map hf]
    cases Cst.childAt? "declaration" children <;> rfl
  · unfold ofAmbient
    rw [hglobal, Cst.childOfType?_map hf, Cst.named_map hf, Cst.withoutComments_map hf]
    split <;> rfl
  · unfold ofModule
    rw [Cst.childAt?_map hf, Cst.childAt?_map hf]
    cases Cst.childAt? "name" children with
    | none => rfl
    | some nameNode =>
      rw [Option.map_some]
      dsimp only
      rw [hf]
      split
      · rfl
      · rfl
  · unfold ofExpression
    rw [Cst.named_map hf, Cst.withoutComments_map hf]
    match Cst.withoutComments (Cst.named children) with
    | [] => rfl
    | [only] =>
      have htype : (f only).type = only.type := congrArg CstHead.type (hf only)
      rw [List.map_singleton]
      dsimp only
      rw [htype]
      split <;> rfl
    | _ :: _ :: _ => rfl
  · rfl

end Placement

end DeclCatalogue
