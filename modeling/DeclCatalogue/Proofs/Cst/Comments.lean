import DeclCatalogue.Proofs.Cst.EachNode

/-!
# Comments in concrete trees

A comment stands among the children of whatever node it is written in. `Cst.dropComments` takes all
comments out of a tree, at any depth, except those that a node holds under a field name; everything
else stays as it is, ranges included.

The lemmas of this module say what is found among the children that are left. What is looked for by
field name, or by a type that is not that of comments, is found all the same (`childAt?_kept`,
`childOfType?_kept`, `filter_kept`). Only looking for the first named child, or for all of them, can
come to something else: `Cst.ledByComment` marks the nodes for which that matters.
-/

namespace DeclCatalogue.Cst

variable {α β : Type}

/-! ## Taking comments out -/

/-- A comment without a field name. -/
def isLooseComment (c : Cst α) : Bool :=
  decide (c.type = "comment" ∧ c.head.field = none)

mutual
/-- A tree without the loose comments among the children of its nodes. -/
def dropComments : Cst α → Cst α
  | node h a cs => node h a (dropCommentsAmong cs)

/-- Children without the loose comments among them and below them. -/
def dropCommentsAmong : List (Cst α) → List (Cst α)
  | [] => []
  | c :: rest =>
    if c.isLooseComment then dropCommentsAmong rest
    else dropComments c :: dropCommentsAmong rest
end

/-- The children that are no loose comments. -/
def kept (cs : List (Cst α)) : List (Cst α) :=
  cs.filter fun c => !c.isLooseComment

theorem kept_cons (c : Cst α) (cs : List (Cst α)) :
    kept (c :: cs) = if c.isLooseComment then kept cs else c :: kept cs := by
  rw [kept, List.filter_cons]
  cases c.isLooseComment <;> rfl

theorem dropCommentsAmong_eq (cs : List (Cst α)) :
    dropCommentsAmong cs = (kept cs).map dropComments := by
  induction cs with
  | nil => rfl
  | cons c rest ih =>
    rw [dropCommentsAmong, kept_cons, ih]
    split
    · rfl
    · rw [List.map_cons]

@[simp] theorem head_dropComments (c : Cst α) : c.dropComments.head = c.head := by
  cases c
  rfl

theorem children_dropComments (c : Cst α) :
    c.dropComments.children = (kept c.children).map dropComments := by
  cases c
  exact dropCommentsAmong_eq _

theorem type_of_isLooseComment {c : Cst α} (h : c.isLooseComment = true) : c.type = "comment" :=
  (of_decide_eq_true h).1

/-! ## Looking among the children that are left -/

section Kept

variable {p : Cst α → Bool}

theorem filter_kept (h : ∀ c, c.isLooseComment = true → p c = false) (cs : List (Cst α)) :
    (kept cs).filter p = cs.filter p := by
  unfold kept
  rw [List.filter_filter]
  refine List.filter_congr fun c _ => ?_
  cases hloose : c.isLooseComment with
  | true => rw [h c hloose, Bool.false_and]
  | false => rw [Bool.not_false, Bool.and_true]

theorem find?_kept (h : ∀ c, c.isLooseComment = true → p c = false) (cs : List (Cst α)) :
    (kept cs).find? p = cs.find? p := by
  rw [← List.head?_filter, ← List.head?_filter, filter_kept h]

theorem any_kept (h : ∀ c, c.isLooseComment = true → p c = false) (cs : List (Cst α)) :
    (kept cs).any p = cs.any p := by
  rw [Bool.eq_iff_iff, List.any_eq_true, List.any_eq_true]
  constructor
  · rintro ⟨c, hc, hp⟩
    exact ⟨c, (List.mem_filter.mp hc).1, hp⟩
  · rintro ⟨c, hc, hp⟩
    refine ⟨c, List.mem_filter.mpr ⟨hc, ?_⟩, hp⟩
    cases hloose : c.isLooseComment with
    | true => rw [h c hloose] at hp; cases hp
    | false => rfl

end Kept

/-- What is held under a field name is no loose comment. -/
theorem childAt?_kept (field : String) (cs : List (Cst α)) :
    childAt? field (kept cs) = childAt? field cs := by
  refine find?_kept (fun c hc => ?_) cs
  rw [(of_decide_eq_true hc).2]
  rfl

theorem childOfType?_kept {types : List String} (h : types.contains "comment" = false)
    (cs : List (Cst α)) : childOfType? types (kept cs) = childOfType? types cs := by
  refine find?_kept (fun c hc => ?_) cs
  rw [type_of_isLooseComment hc]
  exact h

theorem withoutComments_kept (cs : List (Cst α)) :
    withoutComments (kept cs) = withoutComments cs := by
  refine filter_kept (fun c hc => ?_) cs
  rw [type_of_isLooseComment hc]
  rfl

theorem named_kept (cs : List (Cst α)) : named (kept cs) = kept (named cs) := by
  unfold named kept
  rw [List.filter_filter, List.filter_filter]
  exact List.filter_congr fun c _ => Bool.and_comm _ _

/-- A keyword is no loose comment. -/
theorem contains_tokens_kept {keyword : String} (h : keyword ≠ "comment") (cs : List (Cst α)) :
    (tokens (kept cs)).contains keyword = (tokens cs).contains keyword := by
  have htokens : ∀ ds : List (Cst α), (tokens ds).contains keyword =
      ds.any fun d => !d.isNamed && decide (d.type = keyword) := by
    intro ds
    rw [Bool.eq_iff_iff, List.contains_iff_mem, List.any_eq_true]
    unfold tokens
    simp only [List.mem_map, List.mem_filter, Bool.and_eq_true, decide_eq_true_eq, and_assoc]
  rw [htokens, htokens]
  refine any_kept (fun c hc => ?_) cs
  rw [type_of_isLooseComment hc, decide_eq_false h.symm, Bool.and_false]

/-! ## Trees with other notes -/

section Map

variable {f : Cst α → Cst β}

theorem named_map (hf : ∀ c, (f c).head = c.head) (cs : List (Cst α)) :
    named (cs.map f) = (named cs).map f := by
  unfold named
  rw [List.filter_map]
  refine congrArg _ (List.filter_congr fun c _ => ?_)
  exact congrArg CstHead.named (hf c)

theorem tokens_map (hf : ∀ c, (f c).head = c.head) (cs : List (Cst α)) :
    tokens (cs.map f) = tokens cs := by
  unfold tokens
  rw [List.filter_map, List.map_map]
  refine congr (congrArg _ (funext fun c => congrArg CstHead.type (hf c)))
    (List.filter_congr fun c _ => ?_)
  exact congrArg (fun h : CstHead => !h.named) (hf c)

theorem childAt?_map (hf : ∀ c, (f c).head = c.head) (field : String) (cs : List (Cst α)) :
    childAt? field (cs.map f) = (childAt? field cs).map f := by
  unfold childAt?
  rw [List.find?_map]
  refine congrArg (fun p => (cs.find? p).map f) (funext fun c => ?_)
  show decide ((f c).head.field = some field) = _
  rw [hf]

theorem childOfType?_map (hf : ∀ c, (f c).head = c.head) (types : List String)
    (cs : List (Cst α)) : childOfType? types (cs.map f) = (childOfType? types cs).map f := by
  unfold childOfType?
  rw [List.find?_map]
  refine congrArg (fun p => (cs.find? p).map f) (funext fun c => ?_)
  show types.contains (f c).head.type = _
  rw [hf]

theorem withoutComments_map (hf : ∀ c, (f c).head = c.head) (cs : List (Cst α)) :
    withoutComments (cs.map f) = (withoutComments cs).map f := by
  unfold withoutComments
  rw [List.filter_map]
  refine congrArg _ (List.filter_congr fun c _ => ?_)
  show decide ((f c).head.type ≠ "comment") = _
  rw [hf]

theorem filter_type_map (hf : ∀ c, (f c).head = c.head) (p : String → Bool) (cs : List (Cst α)) :
    (cs.map f).filter (fun c => p c.type) = (cs.filter fun c => p c.type).map f := by
  rw [List.filter_map]
  refine congrArg _ (List.filter_congr fun c _ => ?_)
  show p (f c).head.type = _
  rw [hf]

theorem any_type_map (hf : ∀ c, (f c).head = c.head) (p : String → Bool) (cs : List (Cst α)) :
    (cs.map f).any (fun c => p c.type) = cs.any fun c => p c.type := by
  rw [List.any_map]
  refine congrArg (cs.any ·) (funext fun c => ?_)
  show p (f c).head.type = _
  rw [hf]

end Map

/-! ## Operands -/

/-- The operands of an annotated tree are the annotated operands. -/
theorem operands_annotate (rule : CstHead → List (Cst β) → β) (operator : String) (c : Cst α) :
    operands operator (annotate rule c) = (operands operator c).map (annotate rule) := by
  induction c using Cst.induct with
  | node h a cs ih =>
    rw [annotate_node, operands, operands]
    split
    · -- the induction on the tree gives the operands of each child; here it is on the list of them
      induction cs with
      | nil => rfl
      | cons c rest ihrest =>
        have hrest := ihrest fun d hd => ih d (List.mem_cons_of_mem _ hd)
        have hnamed : (annotate rule c).isNamed = c.isNamed :=
          congrArg CstHead.named (head_annotate rule c)
        rw [List.map_cons, operandsAmong, operandsAmong, hnamed, hrest,
          ih c (List.mem_cons_self ..)]
        split
        · rw [List.map_append]
        · rfl
    · rw [List.map_singleton, annotate_node]

theorem operandsAmong_annotate (rule : CstHead → List (Cst β) → β) (operator : String)
    (cs : List (Cst α)) :
    operandsAmong operator (cs.map (annotate rule)) =
      (operandsAmong operator cs).map (annotate rule) := by
  induction cs with
  | nil => rfl
  | cons c rest ih =>
    have hnamed : (annotate rule c).isNamed = c.isNamed :=
      congrArg CstHead.named (head_annotate rule c)
    rw [List.map_cons, operandsAmong, operandsAmong, hnamed, ih, operands_annotate]
    split
    · rw [List.map_append]
    · rfl

/-- A comment is an operand, unless it is taken out. -/
theorem operands_of_isLooseComment {operator : String} (hoperator : operator ≠ "comment")
    {c : Cst α} (h : c.isLooseComment = true) : operands operator c = [c] := by
  cases c with
  | node head a cs =>
    have htype : head.type = "comment" := type_of_isLooseComment h
    rw [operands, if_neg fun heq => hoperator (heq.symm.trans htype)]

theorem kept_append (cs ds : List (Cst α)) : kept (cs ++ ds) = kept cs ++ kept ds :=
  List.filter_append ..

/-- The operands among the children that are left, given those of each child. -/
theorem operandsAmong_kept {operator : String} (hoperator : operator ≠ "comment")
    {cs : List (Cst α)} (h : ∀ c ∈ cs, c.isLooseComment = false →
      operands operator c.dropComments = (kept (operands operator c)).map dropComments) :
    operandsAmong operator ((kept cs).map dropComments) =
      (kept (operandsAmong operator cs)).map dropComments := by
  induction cs with
  | nil => rfl
  | cons c rest ih =>
    have hrest := ih fun d hd => h d (List.mem_cons_of_mem _ hd)
    have hnamed : c.dropComments.isNamed = c.isNamed :=
      congrArg CstHead.named (head_dropComments c)
    -- a comment is its own only operand, and is taken out as one
    cases hloose : c.isLooseComment with
    | true =>
      rw [kept_cons, if_pos hloose, operandsAmong, hrest,
        operands_of_isLooseComment hoperator hloose]
      split
      · rw [List.singleton_append, kept_cons, if_pos hloose]
      · rfl
    | false =>
      have hstays : ¬ c.isLooseComment = true := by rw [hloose]; simp
      rw [kept_cons, if_neg hstays, List.map_cons, operandsAmong, operandsAmong, hnamed, hrest,
        h c (List.mem_cons_self ..) hloose]
      split
      · rw [kept_append, List.map_append]
      · rfl

/-- The operands of a tree without comments are the operands that are no comments. -/
theorem operands_dropComments {operator : String} (hoperator : operator ≠ "comment") (c : Cst α) :
    c.isLooseComment = false →
    operands operator c.dropComments = (kept (operands operator c)).map dropComments := by
  induction c using Cst.induct with
  | node h a cs ih =>
    intro hloose
    rw [dropComments, operands, operands]
    split
    · rw [dropCommentsAmong_eq]
      exact operandsAmong_kept hoperator ih
    · rw [kept, List.filter_cons, hloose]
      rfl

/-! ## First children -/

/-- The types of the nodes that stand for their first named child. -/
def firstChildTypes : List String :=
  ["parenthesized_expression", "rest_pattern", "type_annotation", "constraint", "default_type",
   "array_type", "parenthesized_type", "literal_type"]

/-- Whether a node that stands for its first named child has a comment in front of that child. -/
def ledByComment (c : Cst α) : Bool :=
  firstChildTypes.contains c.type && (named c.children).head?.any isLooseComment &&
    (named c.children).any fun d => !d.isLooseComment

/-- The first named child of a node that is not led by a comment is the first one that is left, or
there is none left and a comment was all there was. -/
theorem head?_named_kept {h : CstHead} {a : α} {cs : List (Cst α)}
    (htype : firstChildTypes.contains h.type = true)
    (hled : (node h a cs).ledByComment = false) :
    (named (kept cs)).head? = (named cs).head? ∨
      (named (kept cs)).head? = none ∧
        ∃ d, (named cs).head? = some d ∧ d.isLooseComment = true := by
  rw [named_kept]
  have hled : ((named cs).head?.any isLooseComment &&
      (named cs).any fun d => !d.isLooseComment) = false := by
    unfold ledByComment at hled
    rwa [show (node h a cs).type = h.type from rfl, htype, Bool.true_and] at hled
  generalize named cs = ds at hled ⊢
  cases ds with
  | nil => exact .inl rfl
  | cons d rest =>
    cases hloose : d.isLooseComment with
    | false =>
      left
      rw [kept, List.filter_cons, hloose]
      rfl
    | true =>
      right
      refine ⟨?_, d, rfl, hloose⟩
      rw [List.head?_eq_none_iff]
      refine List.filter_eq_nil_iff.mpr fun e he hkept => ?_
      have hnone : ((d :: rest).any fun d => !d.isLooseComment) = false := by
        simpa [hloose] using hled
      exact absurd hkept (List.any_eq_false.mp hnone e he)

end DeclCatalogue.Cst
