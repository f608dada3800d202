import DeclCatalogue.Proofs.Cst.EachNode
import DeclCatalogue.Proofs.Cst.Operands

/-!
# The ranges of concrete nodes

A parser lays nodes out over a source: a node ends where it starts or further on, and its children
lie inside it, one after the other and without overlap (`Ranged`).

`Row P start stop cs` says of a list of nodes, each with a property, that they lie inside a range in
this way. Whatever is picked from among nodes in a row is in a row again, since their order is kept;
the operands below a row of nodes are, because the operands of each lie inside it (`Row.flatMap`).
-/

namespace DeclCatalogue.Cst

variable {α : Type}

/-- A node does not end before it starts, and its children lie inside it, one after the other. -/
structure Ranged (c : Cst α) : Prop where
  forward : c.head.start ≤ c.head.stop
  inside : ∀ d ∈ c.children, c.head.start ≤ d.head.start ∧ d.head.stop ≤ c.head.stop
  ordered : c.children.Pairwise fun d e => d.head.stop ≤ e.head.start

instance (c : Cst α) : Decidable (Ranged c) :=
  decidable_of_iff
    (c.head.start ≤ c.head.stop ∧
      (∀ d ∈ c.children, c.head.start ≤ d.head.start ∧ d.head.stop ≤ c.head.stop) ∧
      c.children.Pairwise fun d e => d.head.stop ≤ e.head.start)
    ⟨fun ⟨hforward, hinside, hordered⟩ => ⟨hforward, hinside, hordered⟩,
      fun ⟨hforward, hinside, hordered⟩ => ⟨hforward, hinside, hordered⟩⟩

/-- A node has the property and lies inside a range. -/
structure Held (P : Cst α → Prop) (start stop : Nat) (c : Cst α) : Prop where
  holds : P c
  start_le : start ≤ c.head.start
  stop_le : c.head.stop ≤ stop

/-- Nodes with a property that lie inside a range, one after the other. -/
structure Row (P : Cst α → Prop) (start stop : Nat) (cs : List (Cst α)) : Prop where
  held : ∀ c ∈ cs, Held P start stop c
  ordered : cs.Pairwise fun c d => c.head.stop ≤ d.head.start

variable {P : Cst α → Prop} {start stop : Nat} {cs : List (Cst α)}

/-! ## Nodes picked from a row -/

theorem Row.sublist (h : Row P start stop cs) {ds : List (Cst α)} (hsub : ds.Sublist cs) :
    Row P start stop ds :=
  ⟨fun c hc => h.held c (hsub.subset hc), h.ordered.sublist hsub⟩

theorem Row.named (h : Row P start stop cs) : Row P start stop (named cs) :=
  h.sublist List.filter_sublist

theorem Row.filter (h : Row P start stop cs) (p : Cst α → Bool) :
    Row P start stop (cs.filter p) :=
  h.sublist List.filter_sublist

theorem Row.childAt (h : Row P start stop cs) (field : String) :
    ∀ d, childAt? field cs = some d → Held P start stop d :=
  fun _ hd => h.held _ (childAt?_mem hd)

theorem Row.childOfType (h : Row P start stop cs) (types : List String) :
    ∀ d, childOfType? types cs = some d → Held P start stop d :=
  fun _ hd => h.held _ (childOfType?_mem hd)

theorem Row.first (h : Row P start stop cs) :
    ∀ d, cs.head? = some d → Held P start stop d :=
  fun _ hd => h.held _ (List.mem_of_head? hd)

/-! ## Operands of a row -/

theorem row_singleton {c : Cst α} (h : P c) : Row P c.head.start c.head.stop [c] := by
  refine ⟨fun d hd => ?_, List.pairwise_singleton ..⟩
  rw [List.mem_singleton.mp hd]
  exact ⟨h, Nat.le_refl _, Nat.le_refl _⟩

/-- Rows inside the nodes of a row are a row together. -/
theorem Row.flatMap (h : Row P start stop cs) {f : Cst α → List (Cst α)}
    (hf : ∀ c ∈ cs, Row P c.head.start c.head.stop (f c)) : Row P start stop (cs.flatMap f) := by
  refine ⟨fun d hd => ?_, List.pairwise_flatMap.mpr ⟨fun c hc => (hf c hc).ordered, ?_⟩⟩
  · obtain ⟨c, hc, hmem⟩ := List.mem_flatMap.mp hd
    have houter := h.held c hc
    have hinner := (hf c hc).held d hmem
    exact ⟨hinner.holds, Nat.le_trans houter.start_le hinner.start_le,
      Nat.le_trans hinner.stop_le houter.stop_le⟩
  · refine h.ordered.imp_of_mem fun hc hc' hbefore d hd e he => ?_
    have hleft := ((hf _ hc).held d hd).stop_le
    have hright := ((hf _ hc').held e he).start_le
    exact Nat.le_trans hleft (Nat.le_trans hbefore hright)

/-- The operands of a node lie inside it, one after the other. -/
theorem row_operands (hbelow : ∀ c, P c → Row P c.head.start c.head.stop c.children)
    (operator : String) (c : Cst α) :
    P c → Row P c.head.start c.head.stop (operands operator c) := by
  induction c using Cst.induct with
  | node h a cs ih =>
    intro hc
    rw [operands]
    split
    · have hrow : Row P h.start h.stop (Cst.named cs) := (hbelow _ hc).named
      rw [operandsAmong_eq_flatMap]
      exact hrow.flatMap fun d hd => ih d (mem_of_mem_named hd) (hrow.held d hd).holds
    · exact row_singleton hc

theorem Row.operandsAmong (h : Row P start stop cs)
    (hbelow : ∀ c, P c → Row P c.head.start c.head.stop c.children) (operator : String) :
    Row P start stop (operandsAmong operator cs) := by
  rw [operandsAmong_eq_flatMap]
  exact h.named.flatMap fun c hc => row_operands hbelow operator c (h.named.held c hc).holds

end DeclCatalogue.Cst
