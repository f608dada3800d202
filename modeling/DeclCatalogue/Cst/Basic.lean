/-!
# Concrete syntax trees

The tree that a parser makes of a source: every node has a type, a range of bytes of the source,
and its children in order. A child may be held under a field name, and it is either named, standing
for a part of the language's grammar, or a token such as a keyword or a bracket.

A node can carry a note. `Cst.annotate` notes at every node what a rule makes of the node and of
its children with their notes; it is the one recursion over trees that everything read off a tree
is built on.
-/

namespace DeclCatalogue

/-- What a node of a concrete syntax tree is, apart from its children. -/
structure CstHead where
  type : String
  named : Bool
  /-- The field name under which the parent holds the node. -/
  field : Option String
  start : Nat
  stop : Nat
  deriving DecidableEq, Repr, Inhabited

/-- A concrete syntax tree with a note at every node. -/
inductive Cst (α : Type) where
  | node (head : CstHead) (note : α) (children : List (Cst α))
  deriving Repr

/-- A concrete syntax tree as the parser makes it. -/
abbrev SourceTree := Cst Unit

namespace Cst

variable {α β : Type}

instance [Inhabited α] : Inhabited (Cst α) := ⟨.node default default []⟩

/-- What a node is. -/
def head : Cst α → CstHead
  | node h _ _ => h

/-- What is noted at a node. -/
def note : Cst α → α
  | node _ a _ => a

/-- The children of a node. -/
def children : Cst α → List (Cst α)
  | node _ _ cs => cs

/-- The type of a node. -/
abbrev type (c : Cst α) : String := c.head.type

/-- Whether a node is named. -/
abbrev isNamed (c : Cst α) : Bool := c.head.named

/-! ## Looking among children -/

/-- The named nodes among children. -/
def named (children : List (Cst α)) : List (Cst α) :=
  children.filter fun c => c.isNamed

/-- The types of the tokens among children. -/
def tokens (children : List (Cst α)) : List String :=
  (children.filter fun c => !c.isNamed).map fun c => c.type

/-- The first child that is held under a field name. -/
def childAt? (field : String) (children : List (Cst α)) : Option (Cst α) :=
  children.find? fun c => c.head.field = some field

/-- The first child whose type is among the given ones. -/
def childOfType? (types : List String) (children : List (Cst α)) : Option (Cst α) :=
  children.find? fun c => types.contains c.type

/-- The children of a node that may be missing. -/
def childrenOf : Option (Cst α) → List (Cst α)
  | none => []
  | some c => c.children

/-- The children that are no comments. -/
def withoutComments (children : List (Cst α)) : List (Cst α) :=
  children.filter fun c => c.type ≠ "comment"

/-! ## Notes -/

mutual
/-- Notes at every node what the rule makes of it and of its noted children. -/
def annotate (rule : CstHead → List (Cst β) → β) : Cst α → Cst β
  | node h _ cs => node h (rule h (annotateAll rule cs)) (annotateAll rule cs)

/-- Annotates each of a list of trees. -/
def annotateAll (rule : CstHead → List (Cst β) → β) : List (Cst α) → List (Cst β)
  | [] => []
  | c :: rest => annotate rule c :: annotateAll rule rest
end

theorem annotateAll_eq_map (rule : CstHead → List (Cst β) → β) (cs : List (Cst α)) :
    annotateAll rule cs = cs.map (annotate rule) := by
  induction cs with
  | nil => rfl
  | cons c rest ih => rw [annotateAll, ih, List.map_cons]

theorem annotate_node (rule : CstHead → List (Cst β) → β) (h : CstHead) (a : α)
    (cs : List (Cst α)) :
    annotate rule (node h a cs) =
      node h (rule h (cs.map (annotate rule))) (cs.map (annotate rule)) := by
  rw [annotate, annotateAll_eq_map]

@[simp] theorem head_annotate (rule : CstHead → List (Cst β) → β) (c : Cst α) :
    (annotate rule c).head = c.head := by
  cases c; rw [annotate_node]; rfl

@[simp] theorem children_annotate (rule : CstHead → List (Cst β) → β) (c : Cst α) :
    (annotate rule c).children = c.children.map (annotate rule) := by
  cases c; rw [annotate_node]; rfl

theorem note_annotate (rule : CstHead → List (Cst β) → β) (c : Cst α) :
    (annotate rule c).note = rule c.head (c.children.map (annotate rule)) := by
  cases c; rw [annotate_node]; rfl

theorem named_annotate (rule : CstHead → List (Cst β) → β) (cs : List (Cst α)) :
    named (cs.map (annotate rule)) = (named cs).map (annotate rule) := by
  simp only [named, List.filter_map]
  congr 1
  exact List.filter_congr fun c _ => by simp [Function.comp, isNamed]

/-- Induction over trees: a node may assume the property of its children. -/
theorem induct {motive : Cst α → Prop}
    (node : ∀ h a (cs : List (Cst α)), (∀ c ∈ cs, motive c) → motive (.node h a cs)) :
    ∀ c, motive c :=
  @Cst.rec α motive (fun cs => ∀ c ∈ cs, motive c)
    (fun h a cs ih => node h a cs ih)
    (by simp)
    (fun c cs hc hcs d hd => by
      rcases List.mem_cons.1 hd with rfl | h
      · exact hc
      · exact hcs d h)

/-! ## Operands -/

mutual
/-- The operands of a node under an operator whose nodes have the given type: those of its named
children if the node is itself one of them, else the node alone. -/
def operands (operator : String) : Cst α → List (Cst α)
  | node h a cs =>
    if h.type = operator then operandsAmong operator cs else [node h a cs]

/-- The operands of the named nodes among children, from left to right. -/
def operandsAmong (operator : String) : List (Cst α) → List (Cst α)
  | [] => []
  | c :: rest =>
    if c.isNamed then operands operator c ++ operandsAmong operator rest
    else operandsAmong operator rest
end

end Cst

end DeclCatalogue
