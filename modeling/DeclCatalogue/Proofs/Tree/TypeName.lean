import DeclCatalogue.Proofs.Cst.Texts
import DeclCatalogue.Proofs.Node.View
import DeclCatalogue.Proofs.Text.Characters
import DeclCatalogue.Proofs.Tree.ReadAlike

/-!
# The name that a type refers to

A type reference holds its name as a tree: the segments of a dotted name are joined from left to
right, one qualified name around the other, and every reader of names takes them apart again.
`referredName` says of the concrete node of a type which segments these are, and
`readTree_reference` that the node is read as a type with the name made of them.
`fullName_qualifiedName` is the way back for the whole name, `RefersBy.view_single` and
`RefersBy.view_concat` for the two halves that a variable keeps; they go by the last segment, since
that is where a qualified name is put together.
-/

namespace DeclCatalogue

open Json (lookup)
open Node (asName? ownName? fullName?)

namespace Tree

/-! ## Names made of segments -/

section Segments

variable (head : CstHead)

/-- One more segment. -/
theorem qualifiedName_concat {names : List String} (hne : names ≠ []) (last : String) :
    qualifiedName head (names ++ [last]) =
      some (make .qualifiedName head
        [("left", qualifiedName head names), ("right", identifierNamed head last)]) := by
  cases names with
  | nil => exact absurd rfl hne
  | cons first rest =>
    show List.foldl _ _ (rest ++ [last]) = _
    rw [List.foldl_append]
    rfl

theorem identifierNamed_eq {name : String} (hname : name ≠ "") :
    identifierNamed head name = some (make .identifier head [("text", some (.str name))]) :=
  if_neg hname

/-- There is a name if there are segments. -/
theorem qualifiedName_isObject {names : List String} (hne : names ≠ [])
    (hnames : ∀ name ∈ names, name ≠ "") :
    ∃ kind fields, qualifiedName head names = some (make kind head fields) := by
  rcases List.eq_nil_or_concat' names with rfl | ⟨init, last, rfl⟩
  · exact absurd rfl hne
  by_cases hinit : init = []
  · subst hinit
    have hlast := hnames last (List.mem_singleton_self last)
    exact ⟨_, _, identifierNamed_eq head hlast⟩
  · exact ⟨_, _, qualifiedName_concat head hinit last⟩

/-- The two sides of a qualified name. -/
theorem sides_qualifiedName {names : List String} (hne : names ≠ []) (last : String) :
    let name := (qualifiedName head (names ++ [last])).getD .null
    name.field "left" = (qualifiedName head names).getD .null ∧
      name.field "right" = (identifierNamed head last).getD .null := by
  rw [qualifiedName_concat head hne]
  refine ⟨?_, ?_⟩
  · show lookup "left" (present
      [("left", qualifiedName head names), ("right", identifierNamed head last)]) = _
    exact lookup_present_of_mem (by simp) (by simp)
  · show lookup "right" (present
      [("left", qualifiedName head names), ("right", identifierNamed head last)]) = _
    exact lookup_present_of_mem (by simp) (by simp)

/-- An object with two sides and no text of its own is named by its sides. -/
theorem entityName_sides {fields : Fields} {left right : String}
    (htext : Node.identifierText (.obj fields) = none)
    (hleft : Node.entityName (lookup "left" fields) = some (.str left))
    (hright : Node.entityName (lookup "right" fields) = some (.str right)) :
    Node.entityName (.obj fields) = some (.str (left ++ "." ++ right)) := by
  rw [Node.entityName_obj, htext, hleft, hright]
  rfl

theorem identifierText_identifierNamed {name : String} (hname : name ≠ "") :
    Node.identifierText ((identifierNamed head name).getD .null) = some (.str name) := by
  have hpresent : (Json.str name).present? = some (.str name) := by
    unfold Json.present?
    rw [if_pos (by simpa [Json.truthy] using hname)]
  rw [identifierNamed_eq head hname]
  show ((Json.str name).present? <|> Json.null.present?) = _
  rw [hpresent]
  rfl

theorem entityName_identifierNamed {name : String} (hname : name ≠ "") :
    Node.entityName ((identifierNamed head name).getD .null) = some (.str name) := by
  have htext := identifierText_identifierNamed head hname
  rw [identifierNamed_eq head hname] at htext ⊢
  show Node.entityName (.obj _) = _
  rw [Node.entityName_obj]
  exact congrArg (· <|> _) htext

/-- **The name of joined segments is the segments with points between them.** -/
theorem entityName_qualifiedName {names : List String} (hne : names ≠ [])
    (hnames : ∀ name ∈ names, name ≠ "") :
    Node.entityName ((qualifiedName head names).getD .null) =
      some (.str (".".intercalate names)) := by
  -- by the last segment, where the name is put together
  induction names using List.reverseRecOn with
  | nil => exact absurd rfl hne
  | append_singleton init last ih =>
    have hlast : last ≠ "" := hnames last (List.mem_append_right _ (List.mem_singleton_self last))
    by_cases hinit : init = []
    · subst hinit
      rw [List.nil_append, String.intercalate_singleton]
      exact entityName_identifierNamed head hlast
    · have hleft := ih hinit fun name hn => hnames name (List.mem_append_left _ hn)
      have hright := entityName_identifierNamed head hlast
      obtain ⟨hleftSide, hrightSide⟩ := sides_qualifiedName head hinit last
      rw [← hleftSide] at hleft
      rw [← hrightSide] at hright
      rw [String.intercalate_append_of_ne_nil hinit (List.cons_ne_nil _ _),
        String.intercalate_singleton]
      rw [qualifiedName_concat head hinit] at hleft hright ⊢
      refine entityName_sides ?_ hleft hright
      have hmissing : ∀ key, key ∉ ["left", "right"] → lookup key (present
          [("left", qualifiedName head init), ("right", identifierNamed head last)]) = .null :=
        fun _ hkey => lookup_present_of_not_mem hkey
      show ((lookup "text" (present _)).present? <|>
        (lookup "escapedText" (present _)).present?) = _
      rw [hmissing "text" (by decide), hmissing "escapedText" (by decide)]
      rfl

/-- Joined segments are not empty. -/
theorem intercalate_ne_empty {names : List String} (hne : names ≠ [])
    (hnames : ∀ name ∈ names, name ≠ "") : ".".intercalate names ≠ "" := by
  cases names with
  | nil => exact absurd rfl hne
  | cons first rest =>
    have hfirst := hnames first (List.mem_cons_self ..)
    by_cases hrest : rest = []
    · rw [hrest, String.intercalate_singleton]
      exact hfirst
    · rw [String.intercalate_cons_of_ne_nil hrest]
      intro hempty
      have hleft := (String.append_eq_empty_iff.mp (String.append_eq_empty_iff.mp hempty).1).1
      exact hfirst hleft

/-- The whole name, if there is one. -/
theorem fullName_qualifiedName {names : List String} (hnames : ∀ name ∈ names, name ≠ "") :
    fullName? ((qualifiedName head names).getD .null) = asName? (.str (".".intercalate names)) := by
  by_cases hne : names = []
  · subst hne
    rfl
  · unfold fullName?
    rw [entityName_qualifiedName head hne hnames]
    rfl

end Segments

/-! ## Types that refer to a name -/

/-- Segments that can stand in a name. -/
def AreNames (names : List String) : Prop :=
  ∀ name ∈ names, name ≠ "" ∧ Text.isWellFormed name = true

variable {names : List String}

theorem AreNames.ne_empty (h : AreNames names) : ∀ name ∈ names, name ≠ "" :=
  fun name hn => (h name hn).1

/-- Joined segments are a name. -/
theorem AreNames.intercalate (h : AreNames names) (hne : names ≠ []) :
    ".".intercalate names ≠ "" ∧ Text.isWellFormed (".".intercalate names) = true :=
  ⟨intercalate_ne_empty hne h.ne_empty, Text.isWellFormed_intercalate fun name hn => (h name hn).2⟩

/-- A value whose type name is made of these segments. -/
def RefersBy (names : List String) (type : Json) : Prop :=
  AreNames names ∧ ∃ head, type.field "typeName" = (qualifiedName head names).getD .null

variable {type : Json}

/-- Without segments there is nothing to refer to. -/
theorem RefersBy.view_nil (h : RefersBy [] type) : TypeView.of type = none := by
  obtain ⟨-, head, htype⟩ := h
  unfold TypeView.of
  rw [htype]
  rfl

/-- A single segment is a plain name. -/
theorem RefersBy.view_single {name : Name} (h : RefersBy [name.val] type) :
    TypeView.of type = some (.plain name) := by
  obtain ⟨-, head, htype⟩ := h
  have hname := name.property.1
  have htype : type.field "typeName" = (identifierNamed head name).getD .null := htype
  have hleft : (type.field "typeName").field "left" = .null := by
    rw [htype, identifierNamed_eq head hname]
    rfl
  have hfull : fullName? (type.field "typeName") = some name := by
    unfold fullName?
    rw [htype, entityName_identifierNamed head hname]
    exact Node.asName?_nameText name
  unfold TypeView.of
  dsimp only
  rw [hleft, hfull]
  rfl

/-- The last of several segments is kept apart from those in front of it. -/
theorem RefersBy.view_concat {init : List String} {last : Name}
    (h : RefersBy (init ++ [last.val]) type) (hinit : init ≠ []) :
    TypeView.of type = some (.qualified last (asName? (.str (".".intercalate init)))) := by
  obtain ⟨hnames, head, htype⟩ := h
  have hlast := last.property.1
  have hinits : ∀ name ∈ init, name ≠ "" :=
    fun name hn => hnames.ne_empty name (List.mem_append_left _ hn)
  obtain ⟨hleft, hright⟩ := sides_qualifiedName head hinit last
  rw [← htype] at hleft hright
  have hright' : ownName? ((type.field "typeName").field "right") = some last := by
    unfold ownName?
    rw [hright, identifierText_identifierNamed head hlast]
    exact Node.asName?_nameText last
  have hboth : ((type.field "typeName").field "left").truthy = true ∧
      ((type.field "typeName").field "right").truthy = true := by
    obtain ⟨kind, fields, hobject⟩ := qualifiedName_isObject head hinit hinits
    rw [hleft, hright, hobject, identifierNamed_eq head hlast]
    exact ⟨rfl, rfl⟩
  unfold TypeView.of
  dsimp only
  rw [hboth.1, hboth.2, hright', hleft, fullName_qualifiedName head hinits]
  rfl

/-! ## Types in a concrete tree -/

/-- The text of a node as a single segment; none for an empty text. -/
def nameAt (source : Source) (head : CstHead) : List String :=
  match source.text head with
  | .ok text => [text].filter fun name => name ≠ ""
  | .error _ => []

/-- The segments of the text of a node. -/
def segmentsAt (source : Source) (head : CstHead) : List String :=
  match source.text head with
  | .ok text => segments text
  | .error _ => []

/-- The segments of the name that a type refers to, from those of its children. An annotation stands
for the type in it. -/
def typeNames (source : Source) (head : CstHead) (children : List (Cst (List String))) :
    List String :=
  match TypeShape.ofType head.type with
  | .wrapper => ((Cst.named children).head?.map Cst.note).getD []
  | .name => nameAt source head
  | .dottedName => segmentsAt source head
  | .generic => ((Cst.childAt? "name" children).map fun c => segmentsAt source c.head).getD []
  | _ => []

/-- The segments of the name that a type refers to; none if it refers to no name. -/
def referredName (source : Source) (c : SourceTree) : List String :=
  (Cst.annotate (typeNames source) c).note

theorem typeNames_map {f : SourceTree → Cst (List String)} (hf : ∀ c, (f c).head = c.head)
    (source : Source) (head : CstHead) (cs : List SourceTree) :
    typeNames source head (cs.map f) =
      match TypeShape.ofType head.type with
      | .wrapper => ((Cst.named cs).head?.map fun c => (f c).note).getD []
      | .name => nameAt source head
      | .dottedName => segmentsAt source head
      | .generic => ((Cst.childAt? "name" cs).map fun c => segmentsAt source c.head).getD []
      | _ => [] := by
  unfold typeNames
  rw [Cst.named_map hf, Cst.childAt?_map hf, List.head?_map, Option.map_map, Option.map_map]
  simp only [Function.comp_def, hf]

/-- **The name that a type refers to** by the type of its node. -/
theorem referredName_eq (source : Source) (c : SourceTree) :
    referredName source c =
      match TypeShape.ofType c.type with
      | .wrapper => ((Cst.named c.children).head?.map (referredName source)).getD []
      | .name => nameAt source c.head
      | .dottedName => segmentsAt source c.head
      | .generic => ((Cst.childAt? "name" c.children).map fun d => segmentsAt source d.head).getD []
      | _ => [] := by
  unfold referredName
  rw [Cst.note_annotate]
  exact typeNames_map (Cst.head_annotate _) source c.head c.children

theorem areNames_nameAt (source : Source) (head : CstHead) : AreNames (nameAt source head) := by
  intro name hname
  unfold nameAt at hname
  split at hname
  next text htext =>
    obtain ⟨hmem, hne⟩ := List.mem_filter.mp hname
    refine ⟨of_decide_eq_true hne, ?_⟩
    rw [List.mem_singleton.mp hmem]
    exact source.yields_text head text htext
  next => cases hname

theorem areNames_segmentsAt (source : Source) (head : CstHead) :
    AreNames (segmentsAt source head) := by
  intro name hname
  unfold segmentsAt at hname
  split at hname
  next text htext =>
    exact ⟨of_decide_eq_true (List.mem_filter.mp hname).2,
      isWellFormed_of_mem_segments (source.yields_text head text htext) hname⟩
  next => cases hname

/-- A type refers to names. -/
theorem areNames_referredName (source : Source) (c : SourceTree) :
    AreNames (referredName source c) := by
  induction c using Cst.induct with
  | node head note cs ih =>
    have hnone : AreNames [] := List.forall_mem_nil _
    rw [referredName_eq]
    split
    · cases hinner : (Cst.named cs).head? with
      | none => rwa [show (Cst.node head note cs).children = cs from rfl, hinner]
      | some inner =>
        rw [show (Cst.node head note cs).children = cs from rfl, hinner]
        exact ih inner (Cst.mem_of_mem_named (List.mem_of_head? hinner))
    · exact areNames_nameAt source _
    · exact areNames_segmentsAt source _
    · cases Cst.childAt? "name" (Cst.node head note cs).children with
      | none => exact hnone
      | some d => exact areNames_segmentsAt source d.head
    · exact hnone

variable {source : Source}

/-- A type that stands for no name. -/
theorem refersBy_nil {kind : SyntaxKind} {head : CstHead} {fields : List (String × Option Json)}
    (h : "typeName" ∉ fields.map Prod.fst) :
    RefersBy [] ((some (make kind head fields)).getD .null) :=
  ⟨List.forall_mem_nil _, head, lookup_present_of_not_mem h⟩

/-- A type reference with a name. -/
theorem refersBy_reference {head nameHead : CstHead} {names : List String}
    {fields : List (String × Option Json)} (hnames : AreNames names)
    (h : "typeName" ∉ fields.map Prod.fst) :
    RefersBy names ((some (make .typeReference head
      (("typeName", qualifiedName nameHead names) :: fields))).getD .null) := by
  refine ⟨hnames, nameHead, ?_⟩
  show lookup "typeName" (present (("typeName", qualifiedName nameHead names) :: fields)) = _
  rw [lookup_present_cons _ _ _ _ h, if_pos rfl]

theorem identifier_name (source : Source) (head : CstHead) :
    Yields (identifier source head) fun name => name = qualifiedName head (nameAt source head) := by
  unfold identifier nameAt
  cases source.text head with
  | error fault => exact fun _ h => by cases h
  | ok text =>
    refine yields_ok ?_
    by_cases hempty : text = ""
    · subst hempty
      rfl
    · rw [identifierNamed_eq head hempty]
      dsimp only
      rw [List.filter_cons_of_pos (by simpa using hempty)]
      exact (identifierNamed_eq head hempty).symm

theorem entityName_segments (source : Source) (head : CstHead) :
    Yields (entityName source head) fun name =>
      name = qualifiedName head (segmentsAt source head) := by
  unfold entityName segmentsAt
  cases source.text head with
  | error fault => exact fun _ h => by cases h
  | ok text => exact yields_ok rfl

/-! ## Reading a type, case by case -/

section

variable {head : CstHead} {cs : List SourceTree}

/-- An annotation refers to what the type in it refers to. -/
theorem wrapper_reference (hshape : TypeShape.ofType head.type = .wrapper)
    (h : ∀ c ∈ cs, Yields (readTree source c).note.type fun type =>
      RefersBy (referredName source c) (type.getD .null)) :
    Yields (typeNode source head (cs.map (readTree source))) fun type =>
      RefersBy (((Cst.named cs).head?.map (referredName source)).getD []) (type.getD .null) := by
  unfold typeNode
  dsimp only
  rw [hshape, named_readTree, List.head?_map]
  cases hinner : (Cst.named cs).head? with
  | none => exact yields_ok ⟨List.forall_mem_nil _, head, rfl⟩
  | some inner => exact h inner (Cst.mem_of_mem_named (List.mem_of_head? hinner))

theorem name_reference (hshape : TypeShape.ofType head.type = .name) :
    Yields (typeNode source head (cs.map (readTree source))) fun type =>
      RefersBy (nameAt source head) (type.getD .null) := by
  unfold typeNode
  dsimp only
  rw [hshape]
  refine (identifier_name source head).bind ?_
  rintro _ rfl
  exact yields_pure (refersBy_reference (areNames_nameAt source head) (by simp))

theorem dottedName_reference (hshape : TypeShape.ofType head.type = .dottedName) :
    Yields (typeNode source head (cs.map (readTree source))) fun type =>
      RefersBy (segmentsAt source head) (type.getD .null) := by
  unfold typeNode
  dsimp only
  rw [hshape]
  refine (entityName_segments source head).bind ?_
  rintro _ rfl
  exact yields_pure (refersBy_reference (areNames_segmentsAt source head) (by simp))

/-- Whatever the arguments of a type are, they are built after its name. -/
theorem generic_reference (hshape : TypeShape.ofType head.type = .generic) :
    Yields (typeNode source head (cs.map (readTree source))) fun type =>
      RefersBy (((Cst.childAt? "name" cs).map fun d => segmentsAt source d.head).getD [])
        (type.getD .null) := by
  have hbuilt : ∀ (nameHead : CstHead) {names : List String}, AreNames names →
      ∀ arguments : Option Json, RefersBy names ((some (make .typeReference head
        [("typeName", qualifiedName nameHead names), ("typeArguments", arguments)])).getD .null) :=
    fun _ _ hnames _ => refersBy_reference hnames (by simp)
  unfold typeNode
  dsimp only
  rw [hshape, childAt?_readTree]
  cases Cst.childAt? "name" cs with
  | none =>
    refine Yields.bind (yields_ok rfl) ?_
    rintro _ rfl
    have hnames : AreNames [] := List.forall_mem_nil _
    split
    · exact yields_ok (hbuilt head hnames none)
    · exact (yields_any _).bind fun arguments _ => yields_pure (hbuilt head hnames arguments)
  | some d =>
    have hnames := areNames_segmentsAt source d.head
    rw [Option.map_some, Option.map_some]
    dsimp only
    rw [head_readTree]
    refine (entityName_segments source d.head).bind ?_
    rintro _ rfl
    split
    · exact yields_ok (hbuilt d.head hnames none)
    · exact (yields_any _).bind fun arguments _ => yields_pure (hbuilt d.head hnames arguments)

/-- No other type refers to a name. -/
theorem nameless_reference
    (hshape : TypeShape.ofType head.type ∉ [TypeShape.wrapper, .name, .dottedName, .generic]) :
    Yields (typeNode source head (cs.map (readTree source))) fun type =>
      RefersBy [] (type.getD .null) := by
  unfold typeNode
  dsimp only
  cases hkind : TypeShape.ofType head.type with
  | wrapper | name | dottedName | generic => exact absurd (by rw [hkind]; decide) hshape
  | predefined | tuple | members | union | intersection | array | parenthesized | literal =>
    exact (yields_any _).bind fun _ _ => yields_pure (refersBy_nil (by simp))
  | function =>
    refine (yields_any _).bind fun _ _ => (yields_any _).bind fun _ _ => ?_
    exact yields_pure (refersBy_nil (by simp))
  | other => exact yields_ok (refersBy_nil (by simp))

end

/-- **A node is read as a type with the name that it refers to.** -/
theorem readTree_reference (source : Source) (c : SourceTree) :
    Yields (readTree source c).note.type fun type =>
      RefersBy (referredName source c) (type.getD .null) := by
  induction c using Cst.induct with
  | node head note cs ih =>
    have hnames := referredName_eq source (.node head note cs)
    rw [show (Cst.node head note cs).type = head.type from rfl,
      show (Cst.node head note cs).children = cs from rfl,
      show (Cst.node head note cs).head = head from rfl] at hnames
    rw [note_readTree, hnames]
    cases hshape : TypeShape.ofType head.type with
    | wrapper => exact wrapper_reference hshape ih
    | name => exact name_reference hshape
    | dottedName => exact dottedName_reference hshape
    | generic => exact generic_reference hshape
    | _ =>
      have hnone : TypeShape.ofType head.type ∉
          [TypeShape.wrapper, .name, .dottedName, .generic] := by
        rw [hshape]
        decide
      exact nameless_reference hnone

/-- A type that may be missing. -/
theorem typeOf_reference (source : Source) (node : Option SourceTree) :
    Yields (typeOf? (node.map (readTree source))) fun type =>
      RefersBy ((node.map (referredName source)).getD []) (type.getD .null) := by
  cases node with
  | none => exact yields_ok ⟨List.forall_mem_nil _, default, rfl⟩
  | some c => exact readTree_reference source c

end Tree

end DeclCatalogue
