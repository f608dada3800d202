import DeclCatalogue.Proofs.Cst.Ranges
import DeclCatalogue.Proofs.Node.Links
import DeclCatalogue.Proofs.Tree.Result

/-!
# Names and types nest like the source

The nodes of a built tree have the ranges of concrete nodes, but not one for one: some concrete
nodes vanish, others are spread over several nodes. What carries over is that ranges nest. An object
is `Nested` if it does not end before it starts, and what it directly encloses lies inside its range
and, in a list, one after the other. Tokens, which have no place in the source, are left out of this.

A reading of a concrete node nests if all that is made of the node stays inside the range of the
node (`Reading.Nests`); this says enough of the children of a node to get it for the node. Most parts
of a node are made of one child each and fit because the child does. Lists are made of a row of
children and keep its order (`yields_row`), whether a child becomes one node or several.

This module has names, types and members; declarations and statements come next.
-/

namespace DeclCatalogue.Tree

open Json (lookup EachObject)
open Cst (EachNode Ranged Row Held)

/-! ## Objects and their ranges -/

/-- An object reaches from one place in the source to another. -/
def Spans (start stop : Int) (fields : Fields) : Prop :=
  lookup "pos" fields = .int start ∧ lookup "end" fields = .int stop

/-- The kinds of token: the question mark and the modifiers. -/
def tokenKinds : List SyntaxKind :=
  .questionToken :: ModifierKind.all.map ModifierKind.syntaxKind

/-- A token has no place in the source. -/
def IsToken (fields : Fields) : Prop :=
  (∃ kind ∈ tokenKinds, lookup "kind" fields = .int kind.code) ∧ Spans (-1) (-1) fields

/-- An object lies inside a range and does not end before it starts. -/
def Within (start stop : Int) (fields : Fields) : Prop :=
  ∃ first last, Spans first last fields ∧ start ≤ first ∧ first ≤ last ∧ last ≤ stop

/-- A value does not end after another one starts. What has no range comes before everything. -/
def Before (u v : Json) : Prop :=
  ∀ m n, u.field "end" = .int m → v.field "pos" = .int n → m ≤ n

/-- All that a value holds is a token or lies inside a range, and a list holds it in order. -/
structure Holds (start stop : Int) (v : Json) : Prop where
  inside : ∀ o ∈ v.outermost, IsToken o ∨ Within start stop o
  ordered : ∀ vs, v = .arr vs → vs.Pairwise Before

/-- An object does not end before it starts, and all that it directly encloses lies inside it. -/
def Nested (fields : Fields) : Prop :=
  ∃ start stop, Spans start stop fields ∧ start ≤ stop ∧
    ∀ f ∈ fields, f.1 ≠ "parent" → Holds start stop f.2

/-- A value without objects. -/
theorem holds_leaf {start stop : Int} {v : Json} (h : v.isKey = true) : Holds start stop v := by
  cases v with
  | arr vs => cases h
  | obj fields => cases h
  | _ => exact ⟨fun o ho => (by cases ho), fun vs hvs => by cases hvs⟩

theorem eachObject_leaf {P : Fields → Prop} {v : Json} (h : v.isKey = true) : v.EachObject P := by
  cases v with
  | arr vs => cases h
  | obj fields => cases h
  | _ => exact fun o ho => by cases ho

/-! ## Nodes, lists and fields inside a range -/

variable {start stop first last : Nat}

/-- A node that lies inside a range, with objects that nest. -/
def NodeIn (start stop : Nat) (v : Json) : Prop :=
  (∃ fields, v = .obj fields ∧ Within start stop fields) ∧ v.EachObject Nested

/-- A node that may be missing lies inside a range. -/
def OptIn (start stop : Nat) (value : Option Json) : Prop :=
  ∀ v, value = some v → NodeIn start stop v

/-- Nodes that lie inside a range, one after the other. -/
def NodesIn (start stop : Nat) (vs : List Json) : Prop :=
  (∀ v ∈ vs, NodeIn start stop v) ∧ vs.Pairwise Before

/-- What a field holds, if it is there, lies inside a range. -/
def FieldIn (start stop : Nat) (value : Option Json) : Prop :=
  ∀ v, value = some v → Holds start stop v ∧ v.EachObject Nested

theorem NodeIn.mono {v : Json} (h : NodeIn first last v) (hstart : start ≤ first)
    (hstop : last ≤ stop) : NodeIn start stop v := by
  obtain ⟨⟨fields, rfl, m, n, hspans, hm, hmn, hn⟩, hnested⟩ := h
  exact ⟨⟨fields, rfl, m, n, hspans, by omega, hmn, by omega⟩, hnested⟩

theorem OptIn.mono {o : Option Json} (h : OptIn first last o) (hstart : start ≤ first)
    (hstop : last ≤ stop) : OptIn start stop o :=
  fun v hv => (h v hv).mono hstart hstop

theorem NodesIn.mono {vs : List Json} (h : NodesIn first last vs) (hstart : start ≤ first)
    (hstop : last ≤ stop) : NodesIn start stop vs :=
  ⟨fun v hv => (h.1 v hv).mono hstart hstop, h.2⟩

/-- A node inside a range comes before one inside a later range. -/
theorem NodeIn.before {u v : Json} (hu : NodeIn start stop u) (hv : NodeIn first last v)
    (h : stop ≤ first) : Before u v := by
  obtain ⟨⟨_, rfl, _, b, ⟨-, hend⟩, -, -, hb⟩, -⟩ := hu
  obtain ⟨⟨_, rfl, c, _, ⟨hpos, -⟩, hc, -, -⟩, -⟩ := hv
  intro m n hm hn
  have hm' : b = m := Json.int.inj (hend.symm.trans hm)
  have hn' : c = n := Json.int.inj (hpos.symm.trans hn)
  omega

theorem OptIn.before {o p : Option Json} (ho : OptIn start stop o) (hp : OptIn first last p)
    (h : stop ≤ first) : Before (o.getD .null) (p.getD .null) := by
  cases o with
  | none => exact fun m n hm => by cases hm
  | some u =>
    cases p with
    | none => exact fun m n _ hn => by cases hn
    | some v => exact (ho u rfl).before (hp v rfl) h

theorem NodesIn.before {us vs : List Json} (hus : NodesIn start stop us)
    (hvs : NodesIn first last vs) (h : stop ≤ first) : ∀ u ∈ us, ∀ v ∈ vs, Before u v :=
  fun u hu v hv => (hus.1 u hu).before (hvs.1 v hv) h

theorem optIn_none : OptIn start stop none :=
  fun _ h => by cases h

theorem optIn_some {v : Json} (h : NodeIn start stop v) : OptIn start stop (some v) := by
  intro w hw
  rw [← Option.some.inj hw]
  exact h

theorem nodesIn_nil : NodesIn start stop [] :=
  ⟨fun _ h => (by cases h), .nil⟩

theorem nodesIn_singleton {v : Json} (h : NodeIn start stop v) : NodesIn start stop [v] := by
  refine ⟨fun w hw => ?_, List.pairwise_singleton ..⟩
  rw [List.mem_singleton.mp hw]
  exact h

/-- Lists one after the other are one list. -/
theorem nodesIn_flatten {groups : List (List Json)} (h : ∀ vs ∈ groups, NodesIn start stop vs)
    (hordered : groups.Pairwise fun us vs => ∀ u ∈ us, ∀ v ∈ vs, Before u v) :
    NodesIn start stop groups.flatten := by
  refine ⟨fun v hv => ?_, List.pairwise_flatten.mpr ⟨fun vs hvs => (h vs hvs).2, hordered⟩⟩
  obtain ⟨vs, hvs, hmem⟩ := List.mem_flatten.mp hv
  exact (h vs hvs).1 v hmem

theorem fieldIn_none : FieldIn start stop none :=
  fun _ h => by cases h

theorem fieldIn_leaf {v : Json} (h : v.isKey = true) : FieldIn start stop (some v) := by
  intro w hw
  rw [← Option.some.inj hw]
  exact ⟨holds_leaf h, eachObject_leaf h⟩

/-- A truth value that is left out if it is false. -/
theorem fieldIn_truth (p : Bool) : FieldIn start stop (if p then some (.bool true) else none) := by
  split
  · exact fieldIn_leaf rfl
  · exact fieldIn_none

/-- A node under a field. -/
theorem fieldIn_node {value : Option Json} (h : OptIn start stop value) :
    FieldIn start stop value := by
  intro v hv
  obtain ⟨⟨fields, rfl, hwithin⟩, hnested⟩ := h v hv
  refine ⟨⟨fun o ho => ?_, fun vs hvs => (by cases hvs)⟩, hnested⟩
  rw [List.mem_singleton.mp ho]
  exact .inr hwithin

/-- A list of nodes, some of them missing, under a field. -/
theorem fieldIn_listOf {nodes : List (Option Json)} (h : ∀ o ∈ nodes, OptIn start stop o)
    (hordered : nodes.Pairwise fun o p => Before (o.getD .null) (p.getD .null)) :
    FieldIn start stop (some (listOf nodes)) := by
  intro v hv
  rw [← Option.some.inj hv]
  have hitems : ∀ u ∈ nodes.map (fun n => n.getD .null),
      (∀ o ∈ u.outermost, IsToken o ∨ Within start stop o) ∧ u.EachObject Nested := by
    intro u hu
    obtain ⟨n, hn, rfl⟩ := List.mem_map.mp hu
    cases n with
    | none => exact ⟨(holds_leaf rfl).inside, eachObject_leaf rfl⟩
    | some w => exact (fieldIn_node (h _ hn) w rfl).imp_left Holds.inside
  refine ⟨⟨fun o ho => ?_, fun vs hvs => ?_⟩, Json.eachObject_arr.mpr fun u hu => (hitems u hu).2⟩
  · obtain ⟨u, hu, hmem⟩ := Json.mem_outermostAmong.mp ho
    exact (hitems u hu).1 o hmem
  · rw [← Json.arr.inj hvs]
    exact List.pairwise_map.mpr hordered

/-- A list of nodes under a field. -/
theorem fieldIn_nodes {vs : List Json} (h : NodesIn start stop vs) :
    FieldIn start stop (some (.arr vs)) := by
  have hlist : listOf (vs.map some) = .arr vs := by
    unfold listOf
    rw [List.map_map]
    exact congrArg Json.arr (List.map_id vs)
  rw [← hlist]
  refine fieldIn_listOf (fun o ho => ?_) (List.pairwise_map.mpr h.2)
  obtain ⟨v, hv, rfl⟩ := List.mem_map.mp ho
  exact optIn_some (h.1 v hv)

/-! ## Making nodes -/

/-- **A node nests if its fields lie inside the range that it takes.** -/
theorem nodeIn_flagged {kind : SyntaxKind} {head : CstHead} {flags : Nat}
    {fields : List (String × Option Json)} (hforward : head.start ≤ head.stop)
    (hfields : fields.Forall fun f => FieldIn head.start head.stop f.2) :
    NodeIn head.start head.stop (flagged kind head flags fields) := by
  have hspans : Spans head.start head.stop ([("kind", .int kind.code), ("pos", .int head.start),
      ("end", .int head.stop), ("flags", .int flags)] ++ present fields) := ⟨rfl, rfl⟩
  have hall : ∀ f ∈ [("kind", Json.int kind.code), ("pos", .int head.start),
      ("end", .int head.stop), ("flags", .int flags)] ++ present fields,
      Holds head.start head.stop f.2 ∧ f.2.EachObject Nested := by
    intro f hf
    rcases List.mem_append.mp hf with hframe | hpresent
    · simp only [List.mem_cons, List.not_mem_nil, or_false] at hframe
      rcases hframe with rfl | rfl | rfl | rfl <;> exact ⟨holds_leaf rfl, eachObject_leaf rfl⟩
    · exact List.forall_iff_forall_mem.mp hfields _ (mem_present.mp hpresent) f.2 rfl
  have hle : (head.start : Int) ≤ head.stop := by omega
  refine ⟨⟨_, rfl, _, _, hspans, le_refl _, hle, le_refl _⟩, Json.eachObject_obj.mpr ⟨?_, ?_⟩⟩
  · exact ⟨_, _, hspans, hle, fun f hf _ => (hall f hf).1⟩
  · exact fun f hf => (hall f hf).2

theorem nodeIn_make {kind : SyntaxKind} {head : CstHead} {fields : List (String × Option Json)}
    (hforward : head.start ≤ head.stop)
    (hfields : fields.Forall fun f => FieldIn head.start head.stop f.2) :
    NodeIn head.start head.stop (make kind head fields) :=
  nodeIn_flagged hforward hfields

theorem optIn_make {kind : SyntaxKind} {head : CstHead} {fields : List (String × Option Json)}
    (hforward : head.start ≤ head.stop)
    (hfields : fields.Forall fun f => FieldIn head.start head.stop f.2) :
    OptIn head.start head.stop (some (make kind head fields)) :=
  optIn_some (nodeIn_make hforward hfields)

/-- A token may stand anywhere. -/
theorem fieldIn_token {kind : SyntaxKind} (hkind : kind ∈ tokenKinds) :
    FieldIn start stop (some (token kind)) := by
  intro v hv
  rw [← Option.some.inj hv]
  have hleaf : ∀ f ∈ [("kind", Json.int kind.code), ("pos", .int (-1)), ("end", .int (-1)),
      ("flags", .int 0)], f.2.isKey = true := by
    intro f hf
    simp only [List.mem_cons, List.not_mem_nil, or_false] at hf
    rcases hf with rfl | rfl | rfl | rfl <;> rfl
  refine ⟨⟨fun o ho => ?_, fun vs hvs => (by cases hvs)⟩, Json.eachObject_obj.mpr ⟨?_, ?_⟩⟩
  · rw [List.mem_singleton.mp ho]
    exact .inl ⟨⟨kind, hkind, rfl⟩, rfl, rfl⟩
  · exact ⟨-1, -1, ⟨rfl, rfl⟩, le_refl _, fun f hf _ => holds_leaf (hleaf f hf)⟩
  · exact fun f hf => eachObject_leaf (hleaf f hf)

/-- A question token that may be missing. -/
theorem fieldIn_question (p : Prop) [Decidable p] :
    FieldIn start stop (if p then some (token .questionToken) else none) := by
  split
  · exact fieldIn_token (List.mem_cons_self ..)
  · exact fieldIn_none

theorem fieldIn_modifierNodes (modifiers : List ModifierKind) :
    FieldIn start stop (modifierNodes modifiers) := by
  unfold modifierNodes
  split
  · exact fieldIn_none
  · intro v hv
    rw [← Option.some.inj hv]
    have htoken : ∀ u ∈ modifiers.map (fun m => token m.syntaxKind),
        Holds start stop u ∧ u.EachObject Nested := by
      intro u hu
      obtain ⟨m, -, rfl⟩ := List.mem_map.mp hu
      have hkind : m.syntaxKind ∈ tokenKinds :=
        List.mem_cons_of_mem _ (List.mem_map_of_mem m.mem_all)
      exact fieldIn_token hkind _ rfl
    refine ⟨⟨fun o ho => ?_, fun vs hvs => ?_⟩, ?_⟩
    · obtain ⟨u, hu, hmem⟩ := Json.mem_outermostAmong.mp ho
      exact (htoken u hu).1.inside o hmem
    · -- all modifiers are in the same place, which is none
      rw [← Json.arr.inj hvs]
      refine List.pairwise_map.mpr (List.pairwise_of_forall fun a b m n hm hn => ?_)
      rw [← Json.int.inj hm, ← Json.int.inj hn]
    · exact Json.eachObject_arr.mpr fun u hu => (htoken u hu).2

theorem modifiers_in {α : Type} (source : Source) (inherited : List ModifierKind)
    (children : List (Cst α)) :
    Yields (modifiers source inherited children) fun o => ∀ start stop, FieldIn start stop o :=
  (yields_any _).map fun found _ _ _ => fieldIn_modifierNodes found

/-! ## Readings -/

/-- Whatever a node is read as lies inside a range. -/
structure Reading.Nests (start stop : Nat) (r : Reading) : Prop where
  expression : Yields r.expression (OptIn start stop)
  binding : Yields r.binding (OptIn start stop)
  type : Yields r.type (OptIn start stop)
  statement : ∀ inherited, Yields (r.statement inherited).result (NodesIn start stop)

/-- A node and all nodes below it are laid out over the source, and each is read inside its range.
-/
def Nesting (c : ReadNode) : Prop :=
  EachNode (fun d => Ranged d ∧ d.note.Nests d.head.start d.head.stop) c

/-- The children of a node, in a row inside it. -/
structure Parts (head : CstHead) (children : List ReadNode) : Prop where
  forward : head.start ≤ head.stop
  row : Row Nesting head.start head.stop children

theorem Nesting.parts {c : ReadNode} (h : Nesting c) : Parts c.head c.children := by
  obtain ⟨hforward, hinside, hordered⟩ := h.self.1
  refine ⟨hforward, fun d hd => ⟨h.child hd, ?_, ?_⟩, hordered⟩
  · exact (hinside d hd).1
  · exact (hinside d hd).2

theorem Nesting.row (c : ReadNode) (h : Nesting c) :
    Row Nesting c.head.start c.head.stop c.children :=
  h.parts.row

/-- A child that may be missing lies inside a range. -/
abbrev HeldIn (start stop : Nat) (c : Option ReadNode) : Prop :=
  ∀ d, c = some d → Held Nesting start stop d

/-- The children of a node that may be missing are in a row. -/
theorem row_childrenOf {c : Option ReadNode} (h : HeldIn start stop c) :
    Row Nesting start stop (Cst.childrenOf c) := by
  cases c with
  | none => exact ⟨fun d hd => (by cases hd), .nil⟩
  | some c =>
    have hc := h c rfl
    have hrow := hc.holds.row
    refine ⟨fun d hd => ?_, hrow.ordered⟩
    have hd := hrow.held d hd
    exact ⟨hd.holds, Nat.le_trans hc.start_le hd.start_le, Nat.le_trans hd.stop_le hc.stop_le⟩

/-- A node that takes the range of a child. -/
theorem optIn_child {c : ReadNode} (h : Held Nesting start stop c) {kind : SyntaxKind}
    {fields : List (String × Option Json)}
    (hfields : fields.Forall fun f => FieldIn c.head.start c.head.stop f.2) :
    OptIn start stop (some (make kind c.head fields)) :=
  (optIn_make h.holds.parts.forward hfields).mono h.start_le h.stop_le

/-- **A row of nodes is read into a row.** What is said of a single result, that it lies inside a
range, must hold for a wider range too, and put results inside ranges that follow each other in
order. -/
theorem yields_row {β : Type} (Lies : Nat → Nat → β → Prop) (Ahead : β → β → Prop)
    (hmono : ∀ {a b c d x}, Lies a b x → c ≤ a → b ≤ d → Lies c d x)
    (hahead : ∀ {a b c d x y}, Lies a b x → Lies c d y → b ≤ c → Ahead x y)
    {nodes : List ReadNode} (h : Row Nesting start stop nodes) {step : ReadNode → Decoded β}
    (hstep : ∀ c, Nesting c → Yields (step c) (Lies c.head.start c.head.stop)) :
    Yields (decodeEach step nodes) fun xs =>
      (∀ x ∈ xs, Lies start stop x) ∧ xs.Pairwise Ahead := by
  -- what comes after the first node lies inside the range from its end on
  induction nodes generalizing start with
  | nil => exact yields_ok ⟨fun x hx => (by cases hx), .nil⟩
  | cons c rest ih =>
    have hc := h.held c (List.mem_cons_self ..)
    obtain ⟨hbefore, hordered⟩ := List.pairwise_cons.mp h.ordered
    have hrest : Row Nesting c.head.stop stop rest := by
      refine ⟨fun d hd => ?_, hordered⟩
      have hd' := h.held d (List.mem_cons_of_mem _ hd)
      exact ⟨hd'.holds, hbefore d hd, hd'.stop_le⟩
    refine (hstep c hc.holds).bind fun x hx => ?_
    refine (ih hrest).bind fun xs hxs => ?_
    refine yields_pure ⟨fun y hy => ?_, List.pairwise_cons.mpr ⟨fun y hy => ?_, hxs.2⟩⟩
    · rcases List.mem_cons.mp hy with rfl | hy
      · exact hmono hx hc.start_le hc.stop_le
      · have hforward := hc.holds.parts.forward
        exact hmono (hxs.1 y hy) (Nat.le_trans hc.start_le hforward) (Nat.le_refl _)
    · exact hahead hx (hxs.1 y hy) (Nat.le_refl _)

section Row

variable {nodes : List ReadNode}

/-- A node for each of a row. -/
theorem nodesIn_decodeEach (h : Row Nesting start stop nodes) {step : ReadNode → Decoded Json}
    (hstep : ∀ c, Nesting c → Yields (step c) (NodeIn c.head.start c.head.stop)) :
    Yields (decodeEach step nodes) (NodesIn start stop) :=
  yields_row NodeIn Before NodeIn.mono NodeIn.before h hstep

/-- Several nodes for each of a row. -/
theorem nodesIn_groups (h : Row Nesting start stop nodes) {step : ReadNode → Decoded (List Json)}
    (hstep : ∀ c, Nesting c → Yields (step c) (NodesIn c.head.start c.head.stop)) :
    Yields (decodeEach step nodes) fun groups => NodesIn start stop groups.flatten :=
  (yields_row NodesIn (fun us vs => ∀ u ∈ us, ∀ v ∈ vs, Before u v) NodesIn.mono NodesIn.before h
    hstep).mono fun _ hgroups => nodesIn_flatten hgroups.1 hgroups.2

/-- A type, or none, for each of a row. -/
theorem typeList_in (h : Row Nesting start stop nodes) :
    Yields (typeList nodes) fun v => FieldIn start stop (some v) :=
  (yields_row OptIn (fun o p => Before (o.getD .null) (p.getD .null)) OptIn.mono OptIn.before h
    fun _ hc => hc.self.2.type).map fun _ htypes => fieldIn_listOf htypes.1 htypes.2

end Row

/-! ## Readings of a child -/

/-- What lies inside the range of a child lies inside a range around the child. -/
theorem yields_widen {c : ReadNode} (h : Held Nesting start stop c) {x : Decoded (Option Json)}
    (hx : Yields x (OptIn c.head.start c.head.stop)) : Yields x (OptIn start stop) :=
  hx.mono fun _ ho => ho.mono h.start_le h.stop_le

section Child

variable {c : Option ReadNode}

theorem typeOf_in (h : HeldIn start stop c) : Yields (typeOf? c) (OptIn start stop) := by
  cases c with
  | none => exact yields_ok optIn_none
  | some d => exact yields_widen (h d rfl) (h d rfl).holds.self.2.type

theorem expressionOf_in (h : HeldIn start stop c) :
    Yields (expressionOf? c) (OptIn start stop) := by
  cases c with
  | none => exact yields_ok optIn_none
  | some d => exact yields_widen (h d rfl) (h d rfl).holds.self.2.expression

theorem bindingOf_in (h : HeldIn start stop c) : Yields (bindingOf? c) (OptIn start stop) := by
  cases c with
  | none => exact yields_ok optIn_none
  | some d => exact yields_widen (h d rfl) (h d rfl).holds.self.2.binding

end Child

/-! ## Names and literals -/

section Name

variable {source : Source} {head : CstHead}

theorem identifierNamed_in (hforward : head.start ≤ head.stop) (text : String) :
    OptIn head.start head.stop (identifierNamed head text) := by
  unfold identifierNamed
  split
  · exact optIn_none
  · exact optIn_make hforward (fieldIn_leaf rfl)

theorem identifier_in (hforward : head.start ≤ head.stop) :
    Yields (identifier source head) (OptIn head.start head.stop) :=
  (yields_any _).map fun text _ => identifierNamed_in hforward text

theorem identifierOf_in {c : Option ReadNode} (h : HeldIn start stop c) :
    Yields (identifierOf? source c) (OptIn start stop) := by
  cases c with
  | none => exact yields_ok optIn_none
  | some d => exact yields_widen (h d rfl) (identifier_in (h d rfl).holds.parts.forward)

theorem stringLiteral_in (hforward : head.start ≤ head.stop) :
    Yields (stringLiteral source head) (NodeIn head.start head.stop) :=
  (yields_any _).map fun _ _ => nodeIn_make hforward (fieldIn_leaf rfl)

theorem numericLiteral_in (hforward : head.start ≤ head.stop) :
    Yields (numericLiteral source head) (NodeIn head.start head.stop) :=
  (yields_any _).map fun _ _ => nodeIn_make hforward (fieldIn_leaf rfl)

/-- All parts of a dotted name take the range of the whole name. -/
theorem qualifiedName_in (hforward : head.start ≤ head.stop) (names : List String) :
    OptIn head.start head.stop (qualifiedName head names) := by
  cases names with
  | nil => exact optIn_none
  | cons segment rest =>
    have hfold : ∀ (rest : List String) (left : Option Json), OptIn head.start head.stop left →
        OptIn head.start head.stop (rest.foldl (fun left segment =>
          some (make .qualifiedName head
            [("left", left), ("right", identifierNamed head segment)])) left) := by
      intro rest
      induction rest with
      | nil => exact fun left hleft => hleft
      | cons segment rest ih =>
        intro left hleft
        refine ih _ (optIn_make hforward ⟨fieldIn_node hleft, ?_⟩)
        exact fieldIn_node (identifierNamed_in hforward segment)
    exact hfold rest _ (identifierNamed_in hforward segment)

theorem entityName_in (hforward : head.start ≤ head.stop) :
    Yields (entityName source head) (OptIn head.start head.stop) :=
  (yields_any _).map fun _ _ => qualifiedName_in hforward _

theorem propertyName_in {c : Option ReadNode} (h : HeldIn start stop c) :
    Yields (propertyName source c) (OptIn start stop) := by
  cases c with
  | none => exact yields_ok optIn_none
  | some d =>
    have hforward := (h d rfl).holds.parts.forward
    refine yields_widen (h d rfl) ?_
    unfold propertyName
    dsimp only
    split
    · exact (stringLiteral_in hforward).map fun _ hv => optIn_some hv
    · exact (numericLiteral_in hforward).map fun _ hv => optIn_some hv
    · exact identifier_in hforward
    · exact yields_ok (optIn_make hforward trivial)

end Name

/-! ## Among the children of a node -/

section Children

variable {source : Source} {head : CstHead} {children : List ReadNode}

/-! ## Expressions and bindings -/

theorem expression_in (h : Parts head children) :
    Yields (expression source head children) (OptIn head.start head.stop) := by
  unfold expression
  split
  · -- a name
    exact identifier_in h.forward
  · -- a member of an object
    refine (expressionOf_in (h.row.childAt "object")).bind fun object hobject => ?_
    refine (identifierOf_in (h.row.childAt "property")).bind fun property hproperty => ?_
    exact yields_pure (optIn_make h.forward ⟨fieldIn_node hobject, fieldIn_node hproperty⟩)
  · -- what stands in parentheses
    split
    next inner hinner =>
      have hheld := h.row.named.first inner hinner
      exact yields_widen hheld hheld.holds.self.2.expression
    next => exact yields_ok (optIn_make h.forward trivial)
  · -- a string
    exact (stringLiteral_in h.forward).map fun _ hv => optIn_some hv
  · -- a number
    exact (numericLiteral_in h.forward).map fun _ hv => optIn_some hv
  · -- anything else
    exact yields_ok (optIn_make h.forward trivial)

theorem binding_in (h : Parts head children) :
    Yields (binding source head children) (OptIn head.start head.stop) := by
  unfold binding
  split
  · -- a name
    exact identifier_in h.forward
  · -- the pattern of an object
    exact yields_ok (optIn_make h.forward trivial)
  · -- the pattern of an array
    exact yields_ok (optIn_make h.forward trivial)
  · -- what follows the dots
    split
    next inner hinner =>
      have hheld := h.row.named.first inner hinner
      exact yields_widen hheld hheld.holds.self.2.binding
    next => exact yields_ok (optIn_make h.forward trivial)
  · -- anything else
    exact yields_ok (optIn_make h.forward trivial)

/-! ## Parameters and members -/

theorem typeParameter_in (c : ReadNode) (h : Nesting c) :
    Yields (typeParameter source c) (NodeIn c.head.start c.head.stop) := by
  have hparts := h.parts
  unfold typeParameter
  refine (identifierOf_in (hparts.row.childAt "name")).bind fun name hname => ?_
  refine (typeOf_in (hparts.row.childAt "constraint")).bind fun constraint hconstraint => ?_
  exact yields_pure (nodeIn_make hparts.forward ⟨fieldIn_node hname, fieldIn_node hconstraint⟩)

theorem typeParameters_in (h : Parts head children) :
    Yields (typeParameters source children) (FieldIn head.start head.stop) := by
  unfold typeParameters
  split
  next => exact yields_ok fieldIn_none
  next list hlist =>
    have hrow := row_childrenOf (c := some list) fun d hd =>
      h.row.childAt _ d (hlist.trans hd)
    refine (nodesIn_decodeEach (hrow.named.filter _) typeParameter_in).bind fun vs hvs => ?_
    exact yields_pure (fieldIn_nodes hvs)

theorem parameter_in (c : ReadNode) (h : Nesting c) :
    Yields (parameter source c) (NodeIn c.head.start c.head.stop) := by
  have hparts := h.parts
  unfold parameter
  refine (modifiers_in source [] c.children).bind fun modifiers hmodifiers => ?_
  refine (bindingOf_in (hparts.row.childAt "pattern")).bind fun name hname => ?_
  refine (typeOf_in (hparts.row.childAt "type")).bind fun type htype => ?_
  exact yields_pure (nodeIn_make hparts.forward
    ⟨hmodifiers _ _, fieldIn_node hname, fieldIn_question _, fieldIn_node htype⟩)

theorem parameters_in {list : Option ReadNode} (h : HeldIn start stop list) :
    Yields (parameters source list) fun v => FieldIn start stop (some v) := by
  unfold parameters
  refine (nodesIn_decodeEach ((row_childrenOf h).named.filter _) parameter_in).bind
    fun vs hvs => ?_
  exact yields_pure (fieldIn_nodes hvs)

theorem typeMember_in (c : ReadNode) (h : Nesting c) :
    Yields (typeMember source c) (NodesIn c.head.start c.head.stop) := by
  have hparts := h.parts
  unfold typeMember
  split
  · -- comments are passed over
    exact yields_ok nodesIn_nil
  · -- a property
    refine (modifiers_in source [] c.children).bind fun modifiers hmodifiers => ?_
    refine (propertyName_in (hparts.row.childAt "name")).bind fun name hname => ?_
    refine (typeOf_in (hparts.row.childAt "type")).bind fun type htype => ?_
    exact yields_pure (nodesIn_singleton (nodeIn_make hparts.forward
      ⟨hmodifiers _ _, fieldIn_node hname, fieldIn_question _, fieldIn_node htype⟩))
  · -- a method
    refine (propertyName_in (hparts.row.childAt "name")).bind fun name hname => ?_
    refine (typeParameters_in hparts).bind fun typeParameters htypeParameters => ?_
    refine (parameters_in (hparts.row.childAt "parameters")).bind fun parameters hparameters => ?_
    refine (typeOf_in (hparts.row.childAt "return_type")).bind fun type htype => ?_
    exact yields_pure (nodesIn_singleton (nodeIn_make hparts.forward
      ⟨fieldIn_node hname, htypeParameters, hparameters, fieldIn_node htype⟩))
  · -- anything else
    exact yields_ok (nodesIn_singleton (nodeIn_make hparts.forward trivial))

theorem typeMembers_in (h : Row Nesting start stop children) :
    Yields (typeMembers source children) fun v => FieldIn start stop (some v) := by
  unfold typeMembers
  refine (nodesIn_groups h.named typeMember_in).bind fun groups hgroups => ?_
  exact yields_pure (fieldIn_nodes hgroups)

/-! ## Types -/

theorem typeNode_in (h : Parts head children) :
    Yields (typeNode source head children) (OptIn head.start head.stop) := by
  have hfirst : HeldIn head.start head.stop (Cst.named children).head? := h.row.named.first
  have hoperands := h.row.operandsAmong Nesting.row head.type
  unfold typeNode
  dsimp only
  split
  · -- an annotation stands for the type in it
    exact typeOf_in hfirst
  · -- a name
    refine (identifier_in h.forward).bind fun name hname => ?_
    exact yields_pure (optIn_make h.forward (fieldIn_node hname))
  · -- a dotted name
    refine (entityName_in h.forward).bind fun name hname => ?_
    exact yields_pure (optIn_make h.forward (fieldIn_node hname))
  · -- a type with arguments: both the name and the arguments may be missing
    have hreference : ∀ {name arguments : Decoded (Option Json)},
        Yields name (OptIn head.start head.stop) →
        Yields arguments (FieldIn head.start head.stop) →
        Yields (do
          let name ← name
          let arguments ← arguments
          return some (make .typeReference head
            [("typeName", name), ("typeArguments", arguments)])) (OptIn head.start head.stop) :=
      fun hname harguments => hname.bind fun _ hn => harguments.bind fun _ ha =>
        yields_pure (optIn_make h.forward ⟨fieldIn_node hn, ha⟩)
    have hname : ∀ c, Cst.childAt? "name" children = some c →
        Yields (entityName source c.head) (OptIn head.start head.stop) := by
      intro c hc
      have hheld := h.row.childAt _ c hc
      exact yields_widen hheld (entityName_in hheld.holds.parts.forward)
    have harguments : ∀ list, Cst.childAt? "type_arguments" children = some list →
        Yields (some <$> typeList (Cst.named list.children)) (FieldIn head.start head.stop) := by
      intro list hlist
      have hrow := row_childrenOf (c := some list) fun d hd => h.row.childAt _ d (hlist.trans hd)
      exact (typeList_in hrow.named).map fun _ hv => hv
    cases hc : Cst.childAt? "name" children with
    | none =>
      cases hlist : Cst.childAt? "type_arguments" children with
      | none => exact hreference (yields_ok optIn_none) (yields_ok fieldIn_none)
      | some list => exact hreference (yields_ok optIn_none) (harguments list hlist)
    | some c =>
      cases hlist : Cst.childAt? "type_arguments" children with
      | none => exact hreference (hname c hc) (yields_ok fieldIn_none)
      | some list => exact hreference (hname c hc) (harguments list hlist)
  · -- a predefined type
    refine (yields_any _).bind fun text _ => ?_
    exact yields_pure (optIn_make h.forward trivial)
  · -- an array
    refine (typeOf_in hfirst).bind fun element helement => ?_
    exact yields_pure (optIn_make h.forward (fieldIn_node helement))
  · -- a union, whose operands are flat
    refine (typeList_in hoperands).bind fun types htypes => ?_
    exact yields_pure (optIn_make h.forward htypes)
  · -- an intersection, whose operands are flat
    refine (typeList_in hoperands).bind fun types htypes => ?_
    exact yields_pure (optIn_make h.forward htypes)
  · -- a type in parentheses
    refine (typeOf_in hfirst).bind fun inner hinner => ?_
    exact yields_pure (optIn_make h.forward (fieldIn_node hinner))
  · -- a tuple
    refine (typeList_in h.row.named).bind fun elements helements => ?_
    exact yields_pure (optIn_make h.forward helements)
  · -- a literal
    refine (expressionOf_in hfirst).bind fun literal hliteral => ?_
    exact yields_pure (optIn_make h.forward (fieldIn_node hliteral))
  · -- the members of an object type
    refine (typeMembers_in h.row).bind fun members hmembers => ?_
    exact yields_pure (optIn_make h.forward hmembers)
  · -- the type of a function
    refine (parameters_in (h.row.childAt "parameters")).bind fun parameters hparameters => ?_
    refine (typeOf_in (h.row.childAt "return_type")).bind fun result hresult => ?_
    exact yields_pure (optIn_make h.forward ⟨hparameters, fieldIn_node hresult⟩)
  · -- anything else
    exact yields_ok (optIn_make h.forward trivial)

end Children

end DeclCatalogue.Tree
