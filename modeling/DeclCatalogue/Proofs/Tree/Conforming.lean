import DeclCatalogue.Proofs.Cst.EachNode
import DeclCatalogue.Proofs.Cst.Texts
import DeclCatalogue.Proofs.Tree.Result
import DeclCatalogue.Proofs.Tree.Schema

/-!
# Names and types keep to the schema

Whatever is made of a concrete tree keeps to the schema of its kind, whatever the tree: its
types, its fields and its children may be any. What cannot be made, such as the identifier of an
empty text, is left out and not put in as something else, and this is what the proofs come down to.

Each part of a node is followed from the readings of the nodes below it, which `Conforming` bundles.
This module has names, types and members; declarations and statements come next, and with them the
readings of a whole tree.
-/

namespace DeclCatalogue.Tree

open Cst (EachNode)

/-- A value that may be missing is, if it is there, a node of one of the kinds. -/
def OptNode (kinds : List SyntaxKind) (value : Option Json) : Prop :=
  ∀ v, value = some v → NodeOf kinds v

theorem optNode_none {kinds : List SyntaxKind} : OptNode kinds none :=
  fun _ h => by cases h

theorem optNode_some {kinds : List SyntaxKind} {v : Json} (h : NodeOf kinds v) :
    OptNode kinds (some v) := by
  intro w hw
  rw [← Option.some.inj hw]
  exact h

theorem OptNode.mono {kinds others : List SyntaxKind} (hsub : ∀ k ∈ kinds, k ∈ others)
    {value : Option Json} (h : OptNode kinds value) : OptNode others value :=
  fun v hv => (h v hv).mono hsub

theorem OptNode.any {kinds : List SyntaxKind} {value : Option Json} (h : OptNode kinds value) :
    OptNode SyntaxKind.all value :=
  fun v hv => (h v hv).any

/-- A node without fields of its own. -/
theorem nodeOf_bare {kind : SyntaxKind} (hown : ownKeys kind = []) (head : CstHead) :
    NodeOf [kind] (make kind head []) :=
  nodeOf_make trivial fun key hkey => by rw [hown] at hkey; cases hkey

theorem unknown_any (head : CstHead) : AnyNode (make .unknown head []) :=
  (nodeOf_bare rfl head).any

/-! ## Names and literals -/

theorem identifierNamed_ok (head : CstHead) {text : String}
    (hformed : Text.isWellFormed text = true) :
    OptNode [.identifier] (identifierNamed head text) := by
  unfold identifierNamed
  split
  · exact optNode_none
  next hne =>
    refine optNode_some (nodeOf_make ⟨fieldOk_name rfl hne hformed, trivial⟩ fun key hkey => ?_)
    exact ⟨.str text, by rw [List.mem_singleton.mp hkey]; exact List.mem_cons_self ..⟩

theorem identifier_ok (source : Source) (head : CstHead) :
    Yields (identifier source head) (OptNode [.identifier]) :=
  (source.yields_text head).map fun _ hformed => identifierNamed_ok head hformed

theorem identifierOf_ok {α : Type} (source : Source) (c : Option (Cst α)) :
    Yields (identifierOf? source c) (OptNode [.identifier]) := by
  cases c with
  | none => exact yields_ok optNode_none
  | some c => exact identifier_ok source c.head

/-- A node with a text and nothing else. -/
theorem nodeOf_text {kind : SyntaxKind} (hform : fieldForm kind "text" = some .text)
    (hown : ownKeys kind = ["text"]) (head : CstHead) {text : String}
    (hformed : Text.isWellFormed text = true) :
    NodeOf [kind] (make kind head [("text", some (.str text))]) := by
  refine nodeOf_make ⟨fieldOk_text hform hformed, trivial⟩ fun key hkey => ?_
  rw [hown] at hkey
  exact ⟨.str text, by rw [List.mem_singleton.mp hkey]; exact List.mem_cons_self ..⟩

theorem stringLiteral_ok (source : Source) (head : CstHead) :
    Yields (stringLiteral source head) (NodeOf [.stringLiteral]) :=
  (source.yields_text head).map fun _ hformed =>
    nodeOf_text rfl rfl head (isWellFormed_unquote hformed)

theorem numericLiteral_ok (source : Source) (head : CstHead) :
    Yields (numericLiteral source head) (NodeOf [.numericLiteral]) :=
  (source.yields_text head).map fun _ hformed => nodeOf_text rfl rfl head hformed

theorem segments_ne {text segment : String} (h : segment ∈ segments text) : segment ≠ "" := by
  have hfilter := (List.mem_filter.mp h).2
  simpa using hfilter

/-- The identifier of a text that is not empty. -/
theorem identifierNamed_of_ne (head : CstHead) {text : String} (hne : text ≠ "") :
    identifierNamed head text = some (make .identifier head [("text", some (.str text))]) := by
  unfold identifierNamed
  rw [if_neg hne]

/-- Joining one more segment to a name. -/
private theorem qualified_step (head : CstHead) {left : Json} {segment : String}
    (hleft : NodeOf [.identifier, .qualifiedName] left) (hne : segment ≠ "")
    (hformed : Text.isWellFormed segment = true) :
    NodeOf [.identifier, .qualifiedName] (make .qualifiedName head
      [("left", some left), ("right", identifierNamed head segment)]) := by
  have hnode : NodeOf [.qualifiedName] (make .qualifiedName head
      [("left", some left), ("right", identifierNamed head segment)]) := by
    refine nodeOf_make ⟨fieldOk_node rfl (optNode_some hleft),
      fieldOk_node rfl (identifierNamed_ok head hformed), trivial⟩ fun key hkey => ?_
    rw [identifierNamed_of_ne head hne]
    rcases List.mem_cons.mp hkey with rfl | hkey
    · exact ⟨_, List.mem_cons_self ..⟩
    · rw [List.mem_singleton.mp hkey]
      exact ⟨_, List.mem_cons_of_mem _ (List.mem_cons_self ..)⟩
  exact hnode.mono fun k hk => List.mem_cons_of_mem _ hk

/-- The node of a dotted name none of whose segments is empty. -/
theorem qualifiedName_ok (head : CstHead) (names : List String)
    (hnames : ∀ s ∈ names, s ≠ "" ∧ Text.isWellFormed s = true) :
    OptNode [.identifier, .qualifiedName] (qualifiedName head names) := by
  cases names with
  | nil => exact optNode_none
  | cons first rest =>
    have hfold : ∀ (rest : List String) (left : Json),
        NodeOf [.identifier, .qualifiedName] left →
        (∀ s ∈ rest, s ≠ "" ∧ Text.isWellFormed s = true) →
        OptNode [.identifier, .qualifiedName] (rest.foldl (fun left segment =>
          some (make .qualifiedName head
            [("left", left), ("right", identifierNamed head segment)])) (some left)) := by
      intro rest
      induction rest with
      | nil => exact fun left hleft _ => optNode_some hleft
      | cons segment rest ih =>
        intro left hleft hrest
        refine ih _ ?_ fun s hs => hrest s (List.mem_cons_of_mem _ hs)
        obtain ⟨hne, hformed⟩ := hrest segment (List.mem_cons_self ..)
        exact qualified_step head hleft hne hformed
    obtain ⟨hfirst, hformed⟩ := hnames first (List.mem_cons_self ..)
    simp only [qualifiedName]
    rw [identifierNamed_of_ne head hfirst]
    refine hfold rest _ ?_ fun s hs => hnames s (List.mem_cons_of_mem _ hs)
    refine (identifierNamed_ok head hformed _ (identifierNamed_of_ne head hfirst)).mono
      fun k hk => ?_
    rw [List.mem_singleton.mp hk]
    exact List.mem_cons_self ..

theorem entityName_ok (source : Source) (head : CstHead) :
    Yields (entityName source head) (OptNode [.identifier, .qualifiedName]) :=
  (source.yields_text head).map fun _ hformed => qualifiedName_ok head _ fun _ hs =>
    ⟨segments_ne hs, isWellFormed_of_mem_segments hformed hs⟩

/-- The kinds of node that name a property. -/
abbrev propertyKinds : List SyntaxKind :=
  [.identifier, .stringLiteral, .numericLiteral, .unknown]

theorem propertyName_ok {α : Type} (source : Source) (c : Option (Cst α)) :
    Yields (propertyName source c) (OptNode propertyKinds) := by
  have hsingle : ∀ kind ∈ propertyKinds, ∀ v, NodeOf [kind] v → OptNode propertyKinds (some v) := by
    intro kind hkind v hv
    refine optNode_some (hv.mono fun k hk => ?_)
    rw [List.mem_singleton.mp hk]
    exact hkind
  cases c with
  | none => exact yields_ok optNode_none
  | some c =>
    unfold propertyName
    dsimp only
    split
    · exact (stringLiteral_ok source c.head).map fun v hv => hsingle _ (by decide) v hv
    · exact (numericLiteral_ok source c.head).map fun v hv => hsingle _ (by decide) v hv
    · refine (identifier_ok source c.head).mono fun o ho => ho.mono fun k hk => ?_
      rw [List.mem_singleton.mp hk]
      decide
    · exact yields_ok (hsingle _ (by decide) _ (nodeOf_bare rfl c.head))

/-! ## Modifiers -/

theorem modifierNodes_ok (kind : SyntaxKind) (modifiers : List ModifierKind) :
    FieldOk kind "modifiers" (modifierNodes modifiers) := by
  unfold modifierNodes
  split
  · exact fieldOk_none
  · refine fieldOk_nodes rfl fun v hv => ?_
    obtain ⟨m, -, rfl⟩ := List.mem_map.mp hv
    exact (nodeOf_token (by cases m <;> rfl)).any

theorem modifiers_ok {α : Type} (source : Source) (inherited : List ModifierKind)
    (children : List (Cst α)) :
    Yields (modifiers source inherited children) fun o => ∀ kind, FieldOk kind "modifiers" o :=
  (yields_any _).map fun found _ kind => modifierNodes_ok kind found

/-! ## Readings -/

/-- The kinds of node that stand for the left side of a binding. -/
abbrev bindingKinds : List SyntaxKind :=
  [.identifier, .objectBindingPattern, .arrayBindingPattern, .unknown]

/-- Whatever a node is read as, the result keeps to the schema. -/
structure Reading.Conforms (r : Reading) : Prop where
  expression : Yields r.expression (OptNode SyntaxKind.all)
  binding : Yields r.binding (OptNode bindingKinds)
  type : Yields r.type (OptNode SyntaxKind.all)
  statement : ∀ inherited, Yields (r.statement inherited).result fun vs => ∀ v ∈ vs, AnyNode v

/-- The readings of a node and of all nodes below it keep to the schema. -/
def Conforming (c : ReadNode) : Prop :=
  EachNode (fun d => d.note.Conforms) c

theorem typeOf_ok {c : Option ReadNode} (h : ∀ d, c = some d → Conforming d) :
    Yields (typeOf? c) (OptNode SyntaxKind.all) := by
  cases c with
  | none => exact yields_ok optNode_none
  | some d => exact (h d rfl).self.type

theorem expressionOf_ok {c : Option ReadNode} (h : ∀ d, c = some d → Conforming d) :
    Yields (expressionOf? c) (OptNode SyntaxKind.all) := by
  cases c with
  | none => exact yields_ok optNode_none
  | some d => exact (h d rfl).self.expression

theorem bindingOf_ok {c : Option ReadNode} (h : ∀ d, c = some d → Conforming d) :
    Yields (bindingOf? c) (OptNode bindingKinds) := by
  cases c with
  | none => exact yields_ok optNode_none
  | some d => exact (h d rfl).self.binding

theorem typeList_ok (kind : SyntaxKind) (key : String)
    (hform : fieldForm kind key = some .nodesOrNull) {nodes : List ReadNode}
    (h : ∀ c ∈ nodes, Conforming c) :
    Yields (typeList nodes) fun v => FieldOk kind key (some v) := by
  refine (yields_decodeEach fun c hc => (h c hc).self.type).map fun types htypes => ?_
  exact fieldOk_nodesOrNull hform fun n hn v hv => htypes n hn v hv

/-! ## Among the children of a node -/

section Children

variable {source : Source} {head : CstHead} {children : List ReadNode}

/-- The children of a node and all nodes below them are read in conformance with the schema. -/
def AllConforming (children : List ReadNode) : Prop :=
  ∀ c ∈ children, Conforming c

theorem AllConforming.named (h : AllConforming children) : AllConforming (Cst.named children) :=
  fun c hc => h c (Cst.mem_of_mem_named hc)

theorem AllConforming.filter (h : AllConforming children) (p : ReadNode → Bool) :
    AllConforming (children.filter p) :=
  fun c hc => h c (List.mem_filter.mp hc).1

theorem AllConforming.childAt (h : AllConforming children) (field : String) :
    ∀ d, Cst.childAt? field children = some d → Conforming d :=
  fun _ hd => h _ (Cst.childAt?_mem hd)

theorem AllConforming.childOfType (h : AllConforming children) (types : List String) :
    ∀ d, Cst.childOfType? types children = some d → Conforming d :=
  fun _ hd => h _ (Cst.childOfType?_mem hd)

theorem AllConforming.first (h : AllConforming children) :
    ∀ d, (Cst.named children).head? = some d → Conforming d :=
  fun _ hd => h.named _ (List.mem_of_head? hd)

theorem Conforming.below {c : ReadNode} (h : Conforming c) : AllConforming c.children :=
  fun _ hd => h.child hd

/-! ## Expressions and bindings -/

theorem expression_ok (h : AllConforming children) :
    Yields (expression source head children) (OptNode SyntaxKind.all) := by
  unfold expression
  split
  · -- a name
    exact (identifier_ok source head).mono fun _ ho => ho.any
  · -- a member of an object
    refine (expressionOf_ok (h.childAt "object")).bind fun object hobject => ?_
    refine (identifierOf_ok source _).bind fun property hproperty => ?_
    refine yields_pure (optNode_some (NodeOf.any (nodeOf_make ?_ fun key hkey => by cases hkey)))
    exact ⟨fieldOk_node rfl hobject, fieldOk_node rfl hproperty, trivial⟩
  · -- what stands in parentheses
    split
    next inner hinner => exact (h.first inner hinner).self.expression
    next => exact yields_ok (optNode_some (unknown_any head))
  · -- a string
    exact (stringLiteral_ok source head).map fun v hv => optNode_some hv.any
  · -- a number
    exact (numericLiteral_ok source head).map fun v hv => optNode_some hv.any
  · -- anything else
    exact yields_ok (optNode_some (unknown_any head))

theorem binding_ok (h : AllConforming children) :
    Yields (binding source head children) (OptNode bindingKinds) := by
  have hsingle : ∀ kind ∈ bindingKinds, ownKeys kind = [] →
      OptNode bindingKinds (some (make kind head [])) := by
    intro kind hkind hown
    refine optNode_some ((nodeOf_bare hown head).mono fun k hk => ?_)
    rw [List.mem_singleton.mp hk]
    exact hkind
  unfold binding
  split
  · -- a name
    refine (identifier_ok source head).mono fun o ho => ho.mono fun k hk => ?_
    rw [List.mem_singleton.mp hk]
    decide
  · -- the pattern of an object
    exact yields_ok (hsingle _ (by decide) rfl)
  · -- the pattern of an array
    exact yields_ok (hsingle _ (by decide) rfl)
  · -- what follows the dots
    split
    next inner hinner => exact (h.first inner hinner).self.binding
    next => exact yields_ok (hsingle _ (by decide) rfl)
  · -- anything else
    exact yields_ok (hsingle _ (by decide) rfl)

/-! ## Parameters and members -/

theorem typeParameter_ok {c : ReadNode} (h : Conforming c) :
    Yields (typeParameter source c) AnyNode := by
  unfold typeParameter
  refine (identifierOf_ok source _).bind fun name hname => ?_
  refine (typeOf_ok (h.below.childAt "constraint")).bind fun constraint hconstraint => ?_
  refine yields_pure (NodeOf.any (nodeOf_make ?_ fun key hkey => by cases hkey))
  exact ⟨fieldOk_node rfl hname, fieldOk_node rfl hconstraint, trivial⟩

theorem typeParameters_ok (h : AllConforming children) :
    Yields (typeParameters source children) fun o => ∀ kind, FieldOk kind "typeParameters" o := by
  unfold typeParameters
  split
  next => exact yields_ok fun kind => fieldOk_none
  next list hlist =>
    have hnodes := (h.childAt _ list hlist).below.named.filter fun c => c.type = "type_parameter"
    refine (yields_decodeEach fun c hc => typeParameter_ok (hnodes c hc)).bind fun vs hvs => ?_
    exact yields_pure fun kind => fieldOk_nodes rfl hvs

theorem parameter_ok {c : ReadNode} (h : Conforming c) : Yields (parameter source c) AnyNode := by
  unfold parameter
  refine (modifiers_ok source [] c.children).bind fun modifiers hmodifiers => ?_
  refine (bindingOf_ok (h.below.childAt "pattern")).bind fun name hname => ?_
  refine (typeOf_ok (h.below.childAt "type")).bind fun type htype => ?_
  refine yields_pure (NodeOf.any (nodeOf_make ?_ fun key hkey => by cases hkey))
  refine ⟨hmodifiers _, fieldOk_node rfl hname, fieldOk_node rfl ?_, fieldOk_node rfl htype, trivial⟩
  intro v hv
  split at hv
  · rw [← Option.some.inj hv]
    exact nodeOf_token rfl
  · cases hv

theorem parameters_ok {list : Option ReadNode} (h : ∀ d, list = some d → Conforming d) :
    Yields (parameters source list) fun v => ∀ kind, FieldOk kind "parameters" (some v) := by
  have hchildren : AllConforming (Cst.childrenOf list) := Cst.eachNode_childrenOf h
  unfold parameters
  refine (yields_decodeEach fun c hc => parameter_ok (hchildren.named.filter _ c hc)).bind
    fun vs hvs => ?_
  exact yields_pure fun kind => fieldOk_nodes rfl hvs

/-- Every node of a list keeps to the schema. -/
def NodesOk (vs : List Json) : Prop :=
  ∀ v ∈ vs, AnyNode v

theorem nodesOk_nil : NodesOk [] :=
  fun _ hv => by cases hv

theorem nodesOk_singleton {v : Json} (h : AnyNode v) : NodesOk [v] := by
  intro w hw
  rw [List.mem_singleton.mp hw]
  exact h

theorem nodesOk_flatten {groups : List (List Json)} (h : ∀ vs ∈ groups, NodesOk vs) :
    NodesOk groups.flatten := by
  intro v hv
  obtain ⟨vs, hvs, hmem⟩ := List.mem_flatten.mp hv
  exact h vs hvs v hmem

/-- A question token that may be missing. -/
theorem questionToken_ok {kind : SyntaxKind} (p : Prop) [Decidable p] :
    FieldOk kind "questionToken" (if p then some (token .questionToken) else none) := by
  refine fieldOk_node rfl fun v hv => ?_
  split at hv
  · rw [← Option.some.inj hv]
    exact nodeOf_token rfl
  · cases hv

theorem typeMember_ok {c : ReadNode} (h : Conforming c) :
    Yields (typeMember source c) NodesOk := by
  unfold typeMember
  split
  · -- comments are passed over
    exact yields_ok nodesOk_nil
  · -- a property
    refine (modifiers_ok source [] c.children).bind fun modifiers hmodifiers => ?_
    refine (propertyName_ok source _).bind fun name hname => ?_
    refine (typeOf_ok (h.below.childAt "type")).bind fun type htype => ?_
    refine yields_pure (nodesOk_singleton
      (NodeOf.any (nodeOf_make ?_ fun key hkey => by cases hkey)))
    exact ⟨hmodifiers _, fieldOk_node rfl hname, questionToken_ok _, fieldOk_node rfl htype, trivial⟩
  · -- a method
    refine (propertyName_ok source _).bind fun name hname => ?_
    refine (typeParameters_ok h.below).bind fun typeParameters htypeParameters => ?_
    refine (parameters_ok (h.below.childAt "parameters")).bind fun parameters hparameters => ?_
    refine (typeOf_ok (h.below.childAt "return_type")).bind fun type htype => ?_
    refine yields_pure (nodesOk_singleton
      (NodeOf.any (nodeOf_make ?_ fun key hkey => by cases hkey)))
    exact ⟨fieldOk_node rfl hname, htypeParameters _, hparameters _, fieldOk_node rfl htype, trivial⟩
  · -- anything else
    exact yields_ok (nodesOk_singleton (unknown_any c.head))

theorem typeMembers_ok (h : AllConforming children) :
    Yields (typeMembers source children) fun v => ∀ kind, FieldOk kind "members" (some v) := by
  unfold typeMembers
  refine (yields_decodeEach fun c hc => typeMember_ok (h.named c hc)).bind fun groups hgroups => ?_
  exact yields_pure fun kind => fieldOk_nodes rfl (nodesOk_flatten hgroups)

/-! ## Types -/

/-- A node of any kind that needs no field of its own, as a reading. -/
theorem optNode_make {kind : SyntaxKind} {fields : List (String × Option Json)}
    (hown : ownKeys kind = []) (hfields : FieldsOk kind fields) :
    OptNode SyntaxKind.all (some (make kind head fields)) := by
  refine optNode_some (NodeOf.any (nodeOf_make hfields fun key hkey => ?_))
  rw [hown] at hkey
  cases hkey

theorem predefinedKind_own (text : String) : ownKeys (predefinedKind text) = [] := by
  unfold predefinedKind
  split <;> rfl

theorem typeNode_ok (h : AllConforming children) :
    Yields (typeNode source head children) (OptNode SyntaxKind.all) := by
  unfold typeNode
  dsimp only
  split
  · -- an annotation stands for the type in it
    exact typeOf_ok h.first
  · -- a name
    refine (identifier_ok source head).bind fun name hname => ?_
    refine yields_pure (optNode_make rfl ⟨fieldOk_node rfl (hname.mono fun k hk => ?_), trivial⟩)
    rw [List.mem_singleton.mp hk]
    exact List.mem_cons_self ..
  · -- a dotted name
    refine (entityName_ok source head).bind fun name hname => ?_
    exact yields_pure (optNode_make rfl ⟨fieldOk_node rfl hname, trivial⟩)
  · -- a type with arguments: both the name and the arguments may be missing
    have hreference : ∀ {name arguments : Decoded (Option Json)},
        Yields name (OptNode [.identifier, .qualifiedName]) →
        Yields arguments (FieldOk .typeReference "typeArguments") →
        Yields (do
          let name ← name
          let arguments ← arguments
          return some (make .typeReference head
            [("typeName", name), ("typeArguments", arguments)])) (OptNode SyntaxKind.all) :=
      fun hname harguments => hname.bind fun _ hn => harguments.bind fun _ ha =>
        yields_pure (optNode_make rfl ⟨fieldOk_node rfl hn, ha, trivial⟩)
    have harguments : ∀ list, Cst.childAt? "type_arguments" children = some list →
        Yields (some <$> typeList (Cst.named list.children))
          (FieldOk .typeReference "typeArguments") :=
      fun list hlist => (typeList_ok .typeReference "typeArguments" rfl
        (h.childAt _ list hlist).below.named).map fun _ hv => hv
    cases Cst.childAt? "name" children with
    | none =>
      cases hlist : Cst.childAt? "type_arguments" children with
      | none => exact hreference (yields_ok optNode_none) (yields_ok fieldOk_none)
      | some list => exact hreference (yields_ok optNode_none) (harguments list hlist)
    | some c =>
      cases hlist : Cst.childAt? "type_arguments" children with
      | none => exact hreference (entityName_ok source c.head) (yields_ok fieldOk_none)
      | some list => exact hreference (entityName_ok source c.head) (harguments list hlist)
  · -- a predefined type
    refine (yields_any _).bind fun text _ => ?_
    exact yields_pure (optNode_make (predefinedKind_own text) trivial)
  · -- an array
    refine (typeOf_ok h.first).bind fun element helement => ?_
    exact yields_pure (optNode_make rfl ⟨fieldOk_node rfl helement, trivial⟩)
  · -- a union, whose operands are flat
    refine (typeList_ok .unionType "types" rfl (Cst.eachNode_operandsAmong h)).bind
      fun types htypes => ?_
    exact yields_pure (optNode_make rfl ⟨htypes, trivial⟩)
  · -- an intersection, whose operands are flat
    refine (typeList_ok .intersectionType "types" rfl (Cst.eachNode_operandsAmong h)).bind
      fun types htypes => ?_
    exact yields_pure (optNode_make rfl ⟨htypes, trivial⟩)
  · -- a type in parentheses
    refine (typeOf_ok h.first).bind fun inner hinner => ?_
    exact yields_pure (optNode_make rfl ⟨fieldOk_node rfl hinner, trivial⟩)
  · -- a tuple
    refine (typeList_ok .tupleType "elements" rfl h.named).bind fun elements helements => ?_
    exact yields_pure (optNode_make rfl ⟨helements, trivial⟩)
  · -- a literal
    refine (expressionOf_ok h.first).bind fun literal hliteral => ?_
    exact yields_pure (optNode_make rfl ⟨fieldOk_node rfl hliteral, trivial⟩)
  · -- the members of an object type
    refine (typeMembers_ok h).bind fun members hmembers => ?_
    exact yields_pure (optNode_make rfl ⟨hmembers _, trivial⟩)
  · -- the type of a function
    refine (parameters_ok (h.childAt "parameters")).bind fun parameters hparameters => ?_
    refine (typeOf_ok (h.childAt "return_type")).bind fun result hresult => ?_
    exact yields_pure (optNode_make rfl ⟨hparameters _, fieldOk_node rfl hresult, trivial⟩)
  · -- anything else
    exact yields_ok (optNode_some (unknown_any head))

end Children

end DeclCatalogue.Tree
