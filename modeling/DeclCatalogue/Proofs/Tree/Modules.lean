import DeclCatalogue.Proofs.Tree.ReadAlike

/-!
# What a module is read as

The body of a module is read first, and then its name, which decides on the rest. A module with a
name in quotes is one module, and one with a dotted name is a module for each segment, with the body
in the innermost one. Without a name, or with one that has no segments, it is a node of no known
kind. `moduleDeclaration_cases` says that this is all, along with what has been read on the way, so
that whatever is to be shown of modules is shown in four cases.
-/

namespace DeclCatalogue.Tree

variable {α : Type} {source : Source} {head : CstHead} {inherited : List ModifierKind} {v : Json}

/-- What a module is read as, by its name; `body` is what its body has been read as. -/
inductive ReadsModule (source : Source) (head : CstHead) (children : List (Cst α))
    (inherited : List ModifierKind) (body : Option Json) : Json → Prop where
  | unnamed (hname : Cst.childAt? "name" children = none) :
      ReadsModule source head children inherited body (make .unknown head [])
  | quoted (nameNode : Cst α) (text : String) (modifiers : Option Json)
      (hname : Cst.childAt? "name" children = some nameNode)
      (htype : nameNode.head.type = "string") (htext : source.text nameNode.head = .ok text)
      (hmodifiers : Tree.modifiers source inherited children = .ok modifiers) :
      ReadsModule source head children inherited body
        (flagged .moduleDeclaration head
          (if head.type = "internal_module" then NodeFlag.namespaceModule.bit else 0)
          [("modifiers", modifiers),
           ("name", some (make .stringLiteral nameNode.head [("text", some (.str (unquote text)))])),
           ("body", body)])
  | segmentless (nameNode : Cst α) (text : String)
      (hname : Cst.childAt? "name" children = some nameNode)
      (htype : nameNode.head.type ≠ "string") (htext : source.text nameNode.head = .ok text)
      (hsegments : segments text = []) :
      ReadsModule source head children inherited body (make .unknown head [])
  | dotted (nameNode : Cst α) (text : String) (first : String) (rest : List String)
      (modifiers : Option Json) (hname : Cst.childAt? "name" children = some nameNode)
      (htype : nameNode.head.type ≠ "string") (htext : source.text nameNode.head = .ok text)
      (hsegments : segments text = first :: rest)
      (hmodifiers : Tree.modifiers source inherited children = .ok modifiers) :
      ReadsModule source head children inherited body
        (flagged .moduleDeclaration head
          (if head.type = "internal_module" then NodeFlag.namespaceModule.bit else 0)
          [("modifiers", modifiers), ("name", identifierNamed nameNode.head first),
           ("body", innerModules head nameNode.head
             ((if head.type = "internal_module" then NodeFlag.namespaceModule.bit else 0) |||
               if head.type = "internal_module" then NodeFlag.nestedNamespace.bit else 0)
             rest body)])

/-- **What a module is read as**, once its body is read. -/
theorem moduleDeclaration_cases {children : List ReadNode}
    (h : (moduleDeclaration source head children inherited).result = .ok v) :
    ∃ body, (block .moduleBlock (Cst.childAt? "body" children)).result = .ok body ∧
      ReadsModule source head children inherited body v := by
  unfold moduleDeclaration at h
  dsimp only at h
  rw [Built.result_bind] at h
  obtain ⟨body, hbody, h⟩ := bind_eq_ok.mp h
  refine ⟨body, hbody, ?_⟩
  split at h
  next hname => exact Except.ok.inj h ▸ .unnamed hname
  next nameNode hname =>
    split at h
    next htype =>
      simp only [Built.result_bind, Built.result_lift, Built.result_pure] at h
      obtain ⟨name, hliteral, h⟩ := bind_eq_ok.mp h
      obtain ⟨modifiers, hmodifiers, h⟩ := bind_eq_ok.mp h
      obtain ⟨text, htext, rfl⟩ := map_eq_ok.mp hliteral
      exact Except.ok.inj h ▸ .quoted nameNode text modifiers hname htype htext hmodifiers
    next htype =>
      rw [Built.result_bind, Built.result_lift] at h
      obtain ⟨text, htext, h⟩ := bind_eq_ok.mp h
      split at h
      next hsegments =>
        exact Except.ok.inj h ▸ .segmentless nameNode text hname htype htext hsegments
      next first rest hsegments =>
        simp only [Built.result_bind, Built.result_lift, Built.result_pure] at h
        obtain ⟨modifiers, hmodifiers, h⟩ := bind_eq_ok.mp h
        exact Except.ok.inj h ▸
          .dotted nameNode text first rest modifiers hname htype htext hsegments hmodifiers

/-- Reading the children of a module changes nothing that it is read by. -/
theorem ReadsModule.of_readTree {cs : List SourceTree} {body : Option Json}
    (h : ReadsModule source head (cs.map (readTree source)) inherited body v) :
    ReadsModule source head cs inherited body v := by
  have hname : (Cst.childAt? "name" cs).map (readTree source) =
      Cst.childAt? "name" (cs.map (readTree source)) :=
    (childAt?_readTree source cs "name").symm
  cases h with
  | unnamed h => exact .unnamed (Option.map_eq_none_iff.mp (hname.trans h))
  | quoted nameNode text modifiers h htype htext hmodifiers =>
    obtain ⟨c, hc, rfl⟩ := Option.map_eq_some_iff.mp (hname.trans h)
    rw [head_readTree] at htype htext ⊢
    rw [modifiers_readTree] at hmodifiers
    exact .quoted c text modifiers hc htype htext hmodifiers
  | segmentless nameNode text h htype htext hsegments =>
    obtain ⟨c, hc, rfl⟩ := Option.map_eq_some_iff.mp (hname.trans h)
    rw [head_readTree] at htype htext
    exact .segmentless c text hc htype htext hsegments
  | dotted nameNode text first rest modifiers h htype htext hsegments hmodifiers =>
    obtain ⟨c, hc, rfl⟩ := Option.map_eq_some_iff.mp (hname.trans h)
    rw [head_readTree] at htype htext ⊢
    rw [modifiers_readTree] at hmodifiers
    exact .dotted c text first rest modifiers hc htype htext hsegments hmodifiers

/-- What a module is read as, when its children are read from a tree. -/
theorem moduleDeclaration_readTree {cs : List SourceTree}
    (h : (moduleDeclaration source head (cs.map (readTree source)) inherited).result = .ok v) :
    ∃ body, (block .moduleBlock ((Cst.childAt? "body" cs).map (readTree source))).result =
        .ok body ∧
      ReadsModule source head cs inherited body v := by
  obtain ⟨body, hbody, hreads⟩ := moduleDeclaration_cases h
  rw [childAt?_readTree] at hbody
  exact ⟨body, hbody, hreads.of_readTree⟩

end DeclCatalogue.Tree
