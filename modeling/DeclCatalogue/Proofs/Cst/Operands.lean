import DeclCatalogue.Cst.Basic
import Mathlib.Data.List.Lex
import Mathlib.Data.List.Sort

/-!
# Operands by their places

A place in a concrete tree is told by counting: at each step down, how many named children stand in
front. Places are ordered as their nodes are in the source, a node before those below it, which is
the order of words in a dictionary.

The operands of a node under an operator are the nodes at which nodes of the operator end: nothing
but nodes of the operator stands above them, and they are none themselves (`OperandAt`). A list of
nodes has them all in order if its places are in order, hold an operand each, and no other place
holds one (`OperandsInOrder`). `Cst.operands` is that list and the only one
(`operandsInOrder_iff`), however nodes of the operator are nested.
-/

namespace DeclCatalogue.Cst

variable {α : Type}

/-- The node at a place, if there is one. -/
def below? : Cst α → List Nat → Option (Cst α)
  | c, [] => some c
  | c, i :: place => (named c.children)[i]?.bind fun d => d.below? place

/-- `OperandAt operator c place d`: the node `d` is at the place, is no node of the operator, and
all nodes above it, from `c` on, are. -/
structure OperandAt (operator : String) (c : Cst α) (place : List Nat) (d : Cst α) : Prop where
  there : c.below? place = some d
  ends : d.type ≠ operator
  above : ∀ upper e, upper <+: place → upper ≠ place → c.below? upper = some e → e.type = operator

/-- The nodes that a relation gives for places, from left to right: one for each place for which it
gives any. -/
def Enumerates (R : List Nat → Cst α → Prop) (nodes : List (Cst α)) : Prop :=
  ∃ places : List (List Nat), places.Pairwise (· < ·) ∧
    (∀ place, place ∈ places ↔ ∃ d, R place d) ∧ List.Forall₂ R places nodes

/-- The operands of a node under an operator, from left to right. -/
def OperandsInOrder (operator : String) (c : Cst α) (nodes : List (Cst α)) : Prop :=
  Enumerates (OperandAt operator c) nodes

/-! ## Places in order -/

section Enumerates

variable {R S T : List Nat → Cst α → Prop} {ds es : List (Cst α)}

theorem enumerates_nil (h : ∀ place d, ¬ R place d) : Enumerates R [] := by
  refine ⟨[], .nil, fun place => ?_, .nil⟩
  constructor
  · intro hmem
    cases hmem
  · rintro ⟨d, hd⟩
    exact absurd hd (h place d)

theorem enumerates_singleton {place : List Nat} {c : Cst α}
    (h : ∀ p d, R p d ↔ p = place ∧ d = c) : Enumerates R [c] := by
  refine ⟨[place], List.pairwise_singleton .., fun p => ?_, .cons ((h _ _).mpr ⟨rfl, rfl⟩) .nil⟩
  rw [List.mem_singleton]
  constructor
  · rintro rfl
    exact ⟨c, (h _ _).mpr ⟨rfl, rfl⟩⟩
  · rintro ⟨d, hd⟩
    exact ((h p d).mp hd).1

/-- What is further to the right comes later. -/
theorem Enumerates.append (hR : Enumerates R ds) (hS : Enumerates S es)
    (hT : ∀ p d, T p d ↔ R p d ∨ S p d) (horder : ∀ p q d e, R p d → S q e → p < q) :
    Enumerates T (ds ++ es) := by
  obtain ⟨ps, hps, hmemR, hbothR⟩ := hR
  obtain ⟨qs, hqs, hmemS, hbothS⟩ := hS
  refine ⟨ps ++ qs, List.pairwise_append.mpr ⟨hps, hqs, fun p hp q hq => ?_⟩, fun place => ?_, ?_⟩
  · obtain ⟨d, hd⟩ := (hmemR p).mp hp
    obtain ⟨e, he⟩ := (hmemS q).mp hq
    exact horder p q d e hd he
  · rw [List.mem_append, hmemR, hmemS, ← exists_or]
    exact exists_congr fun d => (hT place d).symm
  · exact List.rel_append (hbothR.imp fun p d hd => (hT p d).mpr (.inl hd))
      (hbothS.imp fun p d hd => (hT p d).mpr (.inr hd))

/-- Places keep their order under a common first step. -/
theorem Enumerates.under (h : Enumerates R ds) (i : Nat) :
    Enumerates (fun place d => ∃ rest, place = i :: rest ∧ R rest d) ds := by
  obtain ⟨places, hplaces, hmem, hboth⟩ := h
  refine ⟨places.map (i :: ·), ?_, fun place => ?_, ?_⟩
  · rw [List.pairwise_map]
    exact hplaces.imp fun hlt => List.cons_lt_cons_iff.mpr (.inr ⟨rfl, hlt⟩)
  · rw [List.mem_map]
    constructor
    · rintro ⟨rest, hrest, rfl⟩
      obtain ⟨d, hd⟩ := (hmem rest).mp hrest
      exact ⟨d, rest, rfl, hd⟩
    · rintro ⟨d, rest, rfl, hd⟩
      exact ⟨rest, (hmem rest).mpr ⟨d, hd⟩, rfl⟩
  · rw [List.forall₂_map_left_iff]
    exact hboth.imp fun rest d hd => ⟨rest, rfl, hd⟩

/-- Every node in the list has a place. -/
theorem Enumerates.exists_place (h : Enumerates R ds) {d : Cst α} (hd : d ∈ ds) :
    ∃ place, R place d := by
  obtain ⟨places, -, -, hboth⟩ := h
  induction hboth with
  | nil => cases hd
  | cons hfirst _ ih =>
    rcases List.mem_cons.mp hd with rfl | hd
    · exact ⟨_, hfirst⟩
    · exact ih hd

/-- If there is one node at most for each place, there is one list at most. -/
theorem Enumerates.unique (hsingle : ∀ p d e, R p d → R p e → d = e) (hd : Enumerates R ds)
    (he : Enumerates R es) : ds = es := by
  obtain ⟨ps, hps, hmem, hboth⟩ := hd
  obtain ⟨qs, hqs, hmem', hboth'⟩ := he
  obtain rfl : ps = qs := by
    refine List.Pairwise.eq_of_mem_iff hps hqs fun place => ?_
    rw [hmem, hmem']
  clear hps hqs hmem hmem'
  induction hboth generalizing es with
  | nil =>
    cases hboth'
    rfl
  | cons hfirst _ ih =>
    cases hboth' with
    | cons hfirst' hrest' => rw [hsingle _ _ _ hfirst hfirst', ih hrest']

end Enumerates

/-! ## The places of operands -/

variable {operator : String}

/-- A node that is none of the operator is its own only operand. -/
theorem operandAt_of_ne {c : Cst α} (h : c.type ≠ operator) {place : List Nat} {d : Cst α} :
    OperandAt operator c place d ↔ place = [] ∧ d = c := by
  constructor
  · rintro ⟨hthere, -, habove⟩
    by_cases hplace : place = []
    · subst hplace
      exact ⟨rfl, (Option.some.inj hthere).symm⟩
    · exact absurd (habove [] c List.nil_prefix (Ne.symm hplace) rfl) h
  · rintro ⟨rfl, rfl⟩
    refine ⟨rfl, h, fun upper e hupper hne => ?_⟩
    exact absurd (List.prefix_nil.mp hupper) hne

/-- The operands of a node of the operator are those of its named children. -/
theorem operandAt_of_eq {c : Cst α} (h : c.type = operator) {place : List Nat} {d : Cst α} :
    OperandAt operator c place d ↔
      ∃ i rest x, place = i :: rest ∧ (named c.children)[i]? = some x ∧
        OperandAt operator x rest d := by
  constructor
  · rintro ⟨hthere, hends, habove⟩
    cases place with
    | nil =>
      rw [← Option.some.inj hthere] at hends
      exact absurd h hends
    | cons i rest =>
      rw [below?] at hthere
      obtain ⟨x, hx, hthere⟩ := Option.bind_eq_some_iff.mp hthere
      refine ⟨i, rest, x, rfl, hx, hthere, hends, fun upper e hupper hne he => ?_⟩
      refine habove (i :: upper) e ((List.prefix_cons_inj i).mpr hupper)
        (fun heq => hne (List.cons.inj heq).2) ?_
      rw [below?, hx]
      exact he
  · rintro ⟨i, rest, x, rfl, hx, hthere, hends, habove⟩
    refine ⟨by rw [below?, hx]; exact hthere, hends, fun upper e hupper hne he => ?_⟩
    cases upper with
    | nil => rwa [← Option.some.inj he]
    | cons j upper =>
      obtain ⟨rfl, hshorter⟩ := List.cons_prefix_cons.mp hupper
      rw [below?, hx] at he
      exact habove upper e hshorter (fun heq => hne (by rw [heq])) he

theorem operandsAmong_eq_flatMap (operator : String) (cs : List (Cst α)) :
    operandsAmong operator cs = (named cs).flatMap (operands operator) := by
  induction cs with
  | nil => rfl
  | cons c rest ih =>
    rw [operandsAmong, ih]
    unfold named
    rw [List.filter_cons]
    split
    · rfl
    · rfl

/-- The operands of a row of nodes, the first of which is counted as `k`. -/
private theorem enumerates_row {xs : List (Cst α)}
    (h : ∀ x ∈ xs, OperandsInOrder operator x (operands operator x)) (k : Nat) :
    Enumerates (fun place d => ∃ i rest x, place = (k + i) :: rest ∧ xs[i]? = some x ∧
      OperandAt operator x rest d) (xs.flatMap (operands operator)) := by
  induction xs generalizing k with
  | nil =>
    refine enumerates_nil ?_
    rintro place d ⟨i, rest, x, -, hx, -⟩
    cases hx
  | cons y ys ih =>
    have hfirst := (h y (List.mem_cons_self ..)).under k
    have hrest := ih (fun x hx => h x (List.mem_cons_of_mem _ hx)) (k + 1)
    refine hfirst.append hrest (fun place d => ?_) ?_
    · constructor
      · rintro ⟨i, rest, x, rfl, hx, hd⟩
        cases i with
        | zero =>
          obtain rfl := Option.some.inj hx
          exact .inl ⟨rest, rfl, hd⟩
        | succ i => exact .inr ⟨i, rest, x, by rw [Nat.add_right_comm]; rfl, hx, hd⟩
      · rintro (⟨rest, rfl, hd⟩ | ⟨i, rest, x, rfl, hx, hd⟩)
        · exact ⟨0, rest, y, rfl, rfl, hd⟩
        · exact ⟨i + 1, rest, x, by rw [Nat.add_right_comm]; rfl, hx, hd⟩
    · rintro p q d e ⟨rest, rfl, -⟩ ⟨i, rest', x, rfl, -, -⟩
      exact List.cons_lt_cons_iff.mpr (.inl (by omega))

/-- **The operands of a node are found in order,** each at its place. -/
theorem operandsInOrder_operands (operator : String) (c : Cst α) :
    OperandsInOrder operator c (operands operator c) := by
  induction c using Cst.induct with
  | node h a cs ih =>
    rw [operands]
    by_cases htype : h.type = operator
    · rw [if_pos htype, operandsAmong_eq_flatMap]
      obtain ⟨places, hplaces, hmem, hboth⟩ :=
        enumerates_row (fun x hx => ih x (List.mem_filter.mp hx).1) 0
      simp only [Nat.zero_add] at hmem hboth
      have hat := @operandAt_of_eq _ _ (node h a cs) htype
      refine ⟨places, hplaces, fun place => ?_, hboth.imp fun place d hd => hat.mpr hd⟩
      rw [hmem]
      exact exists_congr fun d => hat.symm
    · rw [if_neg htype]
      exact enumerates_singleton fun _ _ => @operandAt_of_ne _ _ (node h a cs) htype _ _

/-- The operands in order are `Cst.operands` and nothing else. -/
theorem operandsInOrder_iff {c : Cst α} {ds : List (Cst α)} :
    OperandsInOrder operator c ds ↔ operands operator c = ds := by
  constructor
  · intro h
    refine Enumerates.unique ?_ (operandsInOrder_operands operator c) h
    intro place d e hd he
    exact Option.some.inj (hd.there.symm.trans he.there)
  · rintro rfl
    exact operandsInOrder_operands operator c

end DeclCatalogue.Cst
