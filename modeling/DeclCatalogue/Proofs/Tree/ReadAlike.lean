import DeclCatalogue.Proofs.Cst.Comments
import DeclCatalogue.Proofs.Tree.Agree
import DeclCatalogue.Tree.SourceFile

/-!
# Reading a tree without its comments

A concrete tree is read twice, as it is (`readTree`) and without its comments (`readPlain`), and the
readings are compared node by node. `ReadAlike` says what they have in common: an expression has the
same name, a binding too, a type refers to the same name, and the statements are similar. Everything
that is built on the way, parameters and members for one, either cannot be decoded in both readings
or is there in both, and this is all that matters about it.

The functions that build nodes look for children by field name or by type, and a comment is not
found that way; or they go through all children and pass over comments themselves. The ones that
take the first named child are the exception, and for these a comment must not come first
(`Cst.ledByComment`).
-/

namespace DeclCatalogue.Tree

open Cst (kept EachNode ledByComment)

/-- A concrete tree read without its comments. -/
def readPlain (source : Source) (tree : SourceTree) : ReadNode :=
  readTree source tree.dropComments

variable {source : Source}

@[simp] theorem head_readTree (c : SourceTree) : (readTree source c).head = c.head :=
  Cst.head_annotate _ c

@[simp] theorem head_readPlain (c : SourceTree) : (readPlain source c).head = c.head := by
  unfold readPlain
  rw [head_readTree, Cst.head_dropComments]

theorem children_readTree (c : SourceTree) :
    (readTree source c).children = c.children.map (readTree source) :=
  Cst.children_annotate _ c

theorem children_readPlain (c : SourceTree) :
    (readPlain source c).children = (kept c.children).map (readPlain source) := by
  unfold readPlain
  rw [children_readTree, Cst.children_dropComments, List.map_map]
  rfl

theorem note_readTree (c : SourceTree) :
    (readTree source c).note = reading source c.head (c.children.map (readTree source)) :=
  Cst.note_annotate _ c

theorem note_readPlain (c : SourceTree) :
    (readPlain source c).note =
      reading source c.head ((kept c.children).map (readPlain source)) := by
  rw [← children_readPlain]
  unfold readPlain
  rw [note_readTree, Cst.head_dropComments, children_readTree]

/-! ## What the readings have in common -/

/-- Expressions with the same name. -/
def SameName (a b : Option Json) : Prop :=
  Node.entityName (a.getD .null) = Node.entityName (b.getD .null)

/-- Bindings with the same name. -/
def SameBinding (a b : Option Json) : Prop :=
  Node.identifierText (a.getD .null) = Node.identifierText (b.getD .null)

/-- Types that refer to the same name. -/
def SameReference (a b : Option Json) : Prop :=
  (a.getD .null).field "typeName" = (b.getD .null).field "typeName"

/-- Lists of similar nodes. -/
abbrev AllSimilar : List Json → List Json → Prop :=
  List.Forall₂ Node.Similar

/-- The readings of a node with its comments and without them are alike. -/
structure ReadAlike (source : Source) (c : SourceTree) : Prop where
  expression : Agree SameName (readTree source c).note.expression
    (readPlain source c).note.expression
  binding : Agree SameBinding (readTree source c).note.binding (readPlain source c).note.binding
  type : Agree SameReference (readTree source c).note.type (readPlain source c).note.type
  statement : ∀ inherited, Agree AllSimilar ((readTree source c).note.statement inherited).result
    ((readPlain source c).note.statement inherited).result

/-- Every node of every tree of a list is read alike. -/
def AllReadAlike (source : Source) (cs : List SourceTree) : Prop :=
  ∀ c ∈ cs, EachNode (ReadAlike source) c

variable {head : CstHead} {cs : List SourceTree}

theorem AllReadAlike.childAt (h : AllReadAlike source cs) (field : String) :
    ∀ c, Cst.childAt? field cs = some c → EachNode (ReadAlike source) c :=
  fun _ hc => h _ (Cst.childAt?_mem hc)

theorem AllReadAlike.childOfType (h : AllReadAlike source cs) (types : List String) :
    ∀ c, Cst.childOfType? types cs = some c → EachNode (ReadAlike source) c :=
  fun _ hc => h _ (Cst.childOfType?_mem hc)

theorem AllReadAlike.filter (h : AllReadAlike source cs) (p : SourceTree → Bool) :
    AllReadAlike source (cs.filter p) :=
  fun c hc => h c (List.mem_filter.mp hc).1

theorem AllReadAlike.named (h : AllReadAlike source cs) : AllReadAlike source (Cst.named cs) :=
  h.filter _

theorem allReadAlike_children {c : SourceTree} (h : EachNode (ReadAlike source) c) :
    AllReadAlike source c.children :=
  fun _ hd => h.child hd

/-! ## Children, read -/

section Lookup

variable (source) (cs)

theorem childAt?_readTree (field : String) :
    Cst.childAt? field (cs.map (readTree source)) = (Cst.childAt? field cs).map (readTree source) :=
  Cst.childAt?_map head_readTree field cs

theorem childAt?_readPlain (field : String) :
    Cst.childAt? field ((kept cs).map (readPlain source)) =
      (Cst.childAt? field cs).map (readPlain source) := by
  rw [Cst.childAt?_map head_readPlain, Cst.childAt?_kept]

theorem childOfType?_readTree (types : List String) :
    Cst.childOfType? types (cs.map (readTree source)) =
      (Cst.childOfType? types cs).map (readTree source) :=
  Cst.childOfType?_map head_readTree types cs

theorem childOfType?_readPlain {types : List String} (h : types.contains "comment" = false) :
    Cst.childOfType? types ((kept cs).map (readPlain source)) =
      (Cst.childOfType? types cs).map (readPlain source) := by
  rw [Cst.childOfType?_map head_readPlain, Cst.childOfType?_kept h]

theorem named_readTree :
    Cst.named (cs.map (readTree source)) = (Cst.named cs).map (readTree source) :=
  Cst.named_map head_readTree cs

theorem named_readPlain :
    Cst.named ((kept cs).map (readPlain source)) =
      (kept (Cst.named cs)).map (readPlain source) := by
  rw [Cst.named_map head_readPlain, Cst.named_kept]

/-- The children whose types are wanted are the same, if comments are not. -/
theorem filter_readPlain {p : String → Bool} (hp : p "comment" = false) :
    ((kept cs).map (readPlain source)).filter (fun c => p c.type) =
      (cs.filter fun c => p c.type).map (readPlain source) := by
  rw [Cst.filter_type_map head_readPlain, Cst.filter_kept]
  intro c hc
  rw [Cst.type_of_isLooseComment hc]
  exact hp

theorem filter_readTree (p : String → Bool) :
    (cs.map (readTree source)).filter (fun c => p c.type) =
      (cs.filter fun c => p c.type).map (readTree source) :=
  Cst.filter_type_map head_readTree p cs

theorem orElse_map {α β : Type} (f : α → β) (a b : Option α) :
    (a.map f <|> b.map f) = (a <|> b).map f := by
  cases a <;> rfl

theorem identifierOf?_map {α β : Type} {f : Cst α → Cst β} (hf : ∀ c, (f c).head = c.head)
    (o : Option (Cst α)) : identifierOf? source (o.map f) = identifierOf? source o := by
  cases o with
  | none => rfl
  | some c =>
    show identifier source (f c).head = identifier source c.head
    rw [hf]

theorem propertyName_map {α β : Type} {f : Cst α → Cst β} (hf : ∀ c, (f c).head = c.head)
    (o : Option (Cst α)) : propertyName source (o.map f) = propertyName source o := by
  cases o with
  | none => rfl
  | some c =>
    have htype : (f c).type = c.type := congrArg CstHead.type (hf c)
    unfold propertyName
    dsimp only [Option.map_some]
    rw [htype, hf]

theorem textOf?_map {α β : Type} {f : Cst α → Cst β} (hf : ∀ c, (f c).head = c.head)
    (o : Option (Cst α)) : source.textOf? (o.map f) = source.textOf? o := by
  cases o with
  | none => rfl
  | some c =>
    show source.text (f c).head = source.text c.head
    rw [hf]

theorem modifierAt?_map {α β : Type} {f : Cst α → Cst β} (hf : ∀ c, (f c).head = c.head)
    (c : Cst α) : modifierAt? source (f c) = modifierAt? source c := by
  unfold modifierAt?
  show (if (f c).head.type = _ ∨ (f c).head.type = _ then (source.trimmedText (f c).head).map _
    else .ok (if (f c).head.named then none else modifierOf? (f c).head.type)) = _
  rw [hf]

theorem gatherModifiers_map {α β : Type} {f : Cst α → Cst β} (hf : ∀ c, (f c).head = c.head)
    (found : List ModifierKind) (ds : List (Cst α)) :
    gatherModifiers source found (ds.map f) = gatherModifiers source found ds := by
  induction ds generalizing found with
  | nil => rfl
  | cons d rest ih =>
    rw [List.map_cons, gatherModifiers, gatherModifiers, modifierAt?_map source hf]
    simp only [ih]

/-- A comment is no modifier. -/
theorem gatherModifiers_kept (found : List ModifierKind) :
    gatherModifiers source found (kept cs) = gatherModifiers source found cs := by
  induction cs generalizing found with
  | nil => rfl
  | cons c rest ih =>
    rw [Cst.kept_cons]
    split
    next hloose =>
      have hnone : modifierAt? source c = .ok none := by
        unfold modifierAt?
        rw [Cst.type_of_isLooseComment hloose, if_neg (by decide)]
        cases c.isNamed <;> rfl
      rw [gatherModifiers, hnone, ih]
      rfl
    next =>
      rw [gatherModifiers, gatherModifiers]
      simp only [ih]

theorem modifiers_readTree (inherited : List ModifierKind) :
    modifiers source inherited (cs.map (readTree source)) = modifiers source inherited cs := by
  unfold modifiers
  rw [gatherModifiers_map source head_readTree]

theorem modifiers_readPlain (inherited : List ModifierKind) :
    modifiers source inherited ((kept cs).map (readPlain source)) =
      modifiers source inherited cs := by
  unfold modifiers
  rw [gatherModifiers_map source head_readPlain, gatherModifiers_kept]

end Lookup

/-! ## Comments, read -/

/-- What a loose comment is read as: nothing that could not be decoded. -/
theorem readTree_comment {c : SourceTree} (h : c.isLooseComment = true) :
    (readTree source c).note.expression = .ok (some (make .unknown c.head [])) ∧
      (readTree source c).note.binding = .ok (some (make .unknown c.head [])) ∧
      (readTree source c).note.type = .ok (some (make .unknown c.head [])) ∧
      ∀ inherited, ((readTree source c).note.statement inherited).result = .ok [] := by
  have htype : c.head.type = "comment" := Cst.type_of_isLooseComment h
  rw [note_readTree]
  unfold reading expression binding typeNode statement
  dsimp only
  rw [htype]
  exact ⟨rfl, rfl, rfl, fun _ => rfl⟩

/-- Reading each child, where comments are read without a fault. -/
theorem succeed_decodeEach {α β : Type} {f : ReadNode → Decoded α} {g : ReadNode → Decoded β}
    {cs : List SourceTree}
    (hcomment : ∀ c ∈ cs, c.isLooseComment = true → ∃ a, f (readTree source c) = .ok a)
    (h : ∀ c ∈ cs, SucceedAlike (f (readTree source c)) (g (readPlain source c))) :
    SucceedAlike (decodeEach f (cs.map (readTree source)))
      (decodeEach g ((kept cs).map (readPlain source))) := by
  induction cs with
  | nil => exact .ok trivial
  | cons c rest ih =>
    have hrest := ih (fun d hd => hcomment d (List.mem_cons_of_mem _ hd))
      fun d hd => h d (List.mem_cons_of_mem _ hd)
    rw [Cst.kept_cons, List.map_cons, decodeEach]
    split
    next hloose =>
      -- a comment is read into something that the other reading does not have
      obtain ⟨a, ha⟩ := hcomment c (List.mem_cons_self ..) hloose
      rw [ha, ← bind_pure (decodeEach g _)]
      exact Agree.bind (f := fun as => pure (a :: as)) hrest fun _ _ _ => .ok trivial
    next =>
      rw [List.map_cons, decodeEach]
      refine (h c (List.mem_cons_self ..)).bind fun _ _ _ => hrest.bind fun _ _ _ => .ok trivial

/-- Reading each child into a list of nodes, where comments are read as none. -/
theorem agree_groups {f : ReadNode → Decoded (List Json)} {g : ReadNode → Decoded (List Json)}
    {cs : List SourceTree}
    (hcomment : ∀ c ∈ cs, c.isLooseComment = true → f (readTree source c) = .ok [])
    (h : ∀ c ∈ cs, Agree AllSimilar (f (readTree source c)) (g (readPlain source c))) :
    Agree (fun us vs => AllSimilar us.flatten vs.flatten)
      (decodeEach f (cs.map (readTree source)))
      (decodeEach g ((kept cs).map (readPlain source))) := by
  induction cs with
  | nil => exact .ok .nil
  | cons c rest ih =>
    have hrest := ih (fun d hd => hcomment d (List.mem_cons_of_mem _ hd))
      fun d hd => h d (List.mem_cons_of_mem _ hd)
    rw [Cst.kept_cons, List.map_cons, decodeEach]
    split
    next hloose =>
      rw [hcomment c (List.mem_cons_self ..) hloose, ← bind_pure (decodeEach g _)]
      exact Agree.bind (f := fun as => pure ([] :: as)) hrest fun _ _ hall => .ok hall
    next =>
      rw [List.map_cons, decodeEach]
      refine (h c (List.mem_cons_self ..)).bind fun us vs huv => ?_
      exact hrest.bind fun uss vss hall => .ok (List.rel_append huv hall)

end DeclCatalogue.Tree
