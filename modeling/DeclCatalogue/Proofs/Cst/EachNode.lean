import DeclCatalogue.Cst.Basic

/-!
# The nodes of a concrete tree

`Cst.EachNode P c` says that the node `c` and every node below it have a property, at any depth.
It goes down to the children (`EachNode.child`), and with them to whatever is picked from among
the children by field, by type or as an operand. `eachNode_annotate` is the way in for notes: what
a rule makes true of a node, given that it is true of all nodes below, is true of all nodes of the
annotated tree.
-/

namespace DeclCatalogue.Cst

variable {α β : Type}

mutual
/-- A node and all nodes below it, a node before those below it. -/
def nodes : Cst α → List (Cst α)
  | node h a cs => node h a cs :: nodesAmong cs

/-- The nodes of a list of trees. -/
def nodesAmong : List (Cst α) → List (Cst α)
  | [] => []
  | c :: rest => nodes c ++ nodesAmong rest
end

/-- A node and every node below it has the property. -/
def EachNode (P : Cst α → Prop) (c : Cst α) : Prop :=
  ∀ d ∈ c.nodes, P d

instance {P : Cst α → Prop} [DecidablePred P] (c : Cst α) : Decidable (EachNode P c) :=
  inferInstanceAs (Decidable (∀ d ∈ c.nodes, P d))

theorem mem_nodesAmong {d : Cst α} {cs : List (Cst α)} :
    d ∈ nodesAmong cs ↔ ∃ c ∈ cs, d ∈ c.nodes := by
  induction cs with
  | nil => simp [nodesAmong]
  | cons c rest ih => simp [nodesAmong, ih]

variable {P : Cst α → Prop}

theorem eachNode_node {h : CstHead} {a : α} {cs : List (Cst α)} :
    EachNode P (node h a cs) ↔ P (node h a cs) ∧ ∀ c ∈ cs, EachNode P c := by
  simp only [EachNode, nodes, List.mem_cons, mem_nodesAmong]
  constructor
  · intro hall
    exact ⟨hall _ (.inl rfl), fun c hc d hd => hall d (.inr ⟨c, hc, hd⟩)⟩
  · rintro ⟨hself, hbelow⟩ d (rfl | ⟨c, hc, hd⟩)
    · exact hself
    · exact hbelow c hc d hd

theorem EachNode.self {c : Cst α} (h : EachNode P c) : P c := by
  cases c
  exact (eachNode_node.mp h).1

theorem EachNode.child {c d : Cst α} (h : EachNode P c) (hd : d ∈ c.children) : EachNode P d := by
  cases c
  exact (eachNode_node.mp h).2 d hd

/-! ## Nodes picked from among children -/

theorem mem_of_mem_named {c : Cst α} {cs : List (Cst α)} (h : c ∈ named cs) : c ∈ cs :=
  (List.mem_filter.mp h).1

theorem childAt?_mem {field : String} {c : Cst α} {cs : List (Cst α)}
    (h : childAt? field cs = some c) : c ∈ cs :=
  List.mem_of_find?_eq_some h

theorem childOfType?_mem {types : List String} {c : Cst α} {cs : List (Cst α)}
    (h : childOfType? types cs = some c) : c ∈ cs :=
  List.mem_of_find?_eq_some h

theorem eachNode_childrenOf {o : Option (Cst α)} (h : ∀ c, o = some c → EachNode P c) :
    ∀ d ∈ childrenOf o, EachNode P d := by
  cases o with
  | none =>
    intro d hd
    cases hd
  | some c => exact fun d hd => (h c rfl).child hd

/-- An operand is one of the children, or lies below one. -/
theorem eachNode_operands (operator : String) (c : Cst α) :
    EachNode P c → ∀ d ∈ operands operator c, EachNode P d := by
  induction c using Cst.induct with
  | node h a cs ih =>
    intro hall d hd
    rw [operands] at hd
    split at hd
    · have hcs := (eachNode_node.mp hall).2
      clear hall
      induction cs with
      | nil => cases hd
      | cons c rest ihrest =>
        have hrest := ihrest (fun e he => ih e (List.mem_cons_of_mem _ he))
        rw [operandsAmong] at hd
        split at hd
        · rcases List.mem_append.mp hd with hd | hd
          · exact ih c (List.mem_cons_self ..) (hcs c (List.mem_cons_self ..)) d hd
          · exact hrest hd fun e he => hcs e (List.mem_cons_of_mem _ he)
        · exact hrest hd fun e he => hcs e (List.mem_cons_of_mem _ he)
    · rw [List.mem_singleton.mp hd]
      exact hall

theorem eachNode_operandsAmong {operator : String} {cs : List (Cst α)}
    (h : ∀ c ∈ cs, EachNode P c) : ∀ d ∈ operandsAmong operator cs, EachNode P d := by
  induction cs with
  | nil =>
    intro d hd
    cases hd
  | cons c rest ih =>
    have hrest := ih fun e he => h e (List.mem_cons_of_mem _ he)
    intro d hd
    rw [operandsAmong] at hd
    split at hd
    · rcases List.mem_append.mp hd with hd | hd
      · exact eachNode_operands operator c (h c (List.mem_cons_self ..)) d hd
      · exact hrest d hd
    · exact hrest d hd

/-! ## Notes -/

/-- What a rule makes true of a node holds of every node that it annotates. -/
theorem eachNode_annotate {rule : CstHead → List (Cst β) → β} {P : Cst β → Prop}
    (hrule : ∀ h cs, (∀ c ∈ cs, EachNode P c) → P (node h (rule h cs) cs)) (c : Cst α) :
    EachNode P (annotate rule c) := by
  induction c using Cst.induct with
  | node h a cs ih =>
    rw [annotate_node]
    have hcs : ∀ d ∈ cs.map (annotate rule), EachNode P d := by
      intro d hd
      obtain ⟨c, hc, rfl⟩ := List.mem_map.mp hd
      exact ih c hc
    exact eachNode_node.mpr ⟨hrule h _ hcs, hcs⟩

end DeclCatalogue.Cst
