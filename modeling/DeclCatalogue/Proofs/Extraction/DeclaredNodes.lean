import DeclCatalogue.Proofs.Cst.Texts
import DeclCatalogue.Proofs.Extraction.Records
import DeclCatalogue.Proofs.Tree.ReadAlike

/-!
# Nodes of declarations and modules

What can be read off the nodes that declarations are built into, said of the concrete tree: the
heading, the text of the name, and whether there is an export modifier. All four kinds of
declaration start with their modifiers and their name, and what comes behind has no part in this;
`Declares` says it for any of them. `Opens` says of a module which name it goes by and what its body
is.
-/

namespace DeclCatalogue

open Json (lookup)
open Node (asText? ownText?)

/-- The text of a name stands for characters. -/
theorem Sites.isWellFormed_nameText {α : Type} (source : Source) (children : List (Cst α)) :
    Text.isWellFormed (Sites.nameText source children) = true := by
  unfold Sites.nameText
  split
  next htext => exact source.yields_textOf? _ _ htext
  next => rfl

theorem ModifierKind.name_eq_exported (m : ModifierKind) :
    m.name = ModifierKind.exported.name ↔ m = .exported := by
  cases m <;> decide

namespace Tree

variable {α : Type} {source : Source} {children : List (Cst α)}

/-! ## Modifiers -/

theorem contains_gathered (found : List ModifierKind) (m : ModifierKind) :
    (if found.contains m then found else found ++ [m]).contains .exported =
      (found.contains .exported || decide (m = .exported)) := by
  -- a modifier that is left out was found before, so it is in the list either way
  by_cases hm : m = .exported
  · subst hm
    rw [decide_eq_true rfl, Bool.or_true]
    split
    next hfound => exact hfound
    next => simp
  · rw [decide_eq_false hm, Bool.or_false]
    split
    next => rfl
    next => simp [Ne.symm hm]

theorem isExport_eq {c : Cst α} {modifier : Option ModifierKind}
    (h : modifierAt? source c = .ok modifier) :
    Sites.isExport source c = decide (modifier = some .exported) := by
  unfold Sites.isExport
  rw [h]
  cases modifier with
  | none => rfl
  | some m => cases m <;> rfl

/-- An export modifier is gathered if it was found before or is carried by a child. -/
theorem gatherModifiers_exported (found : List ModifierKind) :
    Yields (gatherModifiers source found children) fun all =>
      all.contains .exported =
        (found.contains .exported || Sites.carriesExport source children) := by
  induction children generalizing found with
  | nil => exact yields_ok (Bool.or_false _).symm
  | cons c rest ih =>
    rw [gatherModifiers]
    intro all hall
    obtain ⟨modifier, hmodifier, hrest⟩ := bind_eq_ok.mp hall
    unfold Sites.carriesExport at ih ⊢
    rw [List.any_cons, isExport_eq hmodifier]
    cases modifier with
    | none => exact ih found all hrest
    | some m => rw [ih _ all hrest, contains_gathered, Bool.or_assoc,
        decide_eq_decide.mpr (Option.some_inj (a := m))]

/-- The modifiers of a node show whether an export modifier was gathered. -/
theorem exported_modifierNodes (all : List ModifierKind) :
    ((View.itemsOf ((modifierNodes all).getD .null)).any fun m =>
      View.kindOf KindTable.standard m = some ModifierKind.exported.name) =
        all.contains .exported := by
  have hitems : View.itemsOf ((modifierNodes all).getD .null) =
      all.map fun m => token m.syntaxKind := by
    cases all <;> rfl
  rw [hitems, List.any_map]
  induction all with
  | nil => rfl
  | cons m rest ih =>
    have hkind : View.kindOf KindTable.standard (token m.syntaxKind) = some m.name :=
      View.kindOf_standard rfl
    have hmodifier : decide (some m.name = some ModifierKind.exported.name) =
        (ModifierKind.exported == m) := by
      rw [Bool.eq_iff_iff, decide_eq_true_iff, Option.some_inj, m.name_eq_exported, beq_iff_eq]
      exact eq_comm
    rw [List.any_cons, List.contains_cons, ih (by cases rest <;> rfl), Function.comp_apply, hkind,
      hmodifier]

/-! ## Names -/

/-- The text of a node with a text. -/
theorem ownText_make (kind : SyntaxKind) (head : CstHead) (text : String) :
    ownText? (make kind head [("text", some (.str text))]) = asText? (.str text) := by
  have htext : Node.identifierText (make kind head [("text", some (.str text))]) =
      (Json.str text).present? := by
    show ((Json.str text).present? <|> Json.null.present?) = _
    cases (Json.str text).present? <;> rfl
  unfold ownText?
  rw [htext]
  by_cases hempty : text = ""
  · subst hempty
    rfl
  · have hpresent : (Json.str text).present? = some (.str text) := by
      unfold Json.present?
      rw [if_pos (by simpa [Json.truthy] using hempty)]
    rw [hpresent]
    rfl

theorem ownText_identifierNamed (head : CstHead) (text : String) :
    ownText? ((identifierNamed head text).getD .null) = asText? (.str text) := by
  unfold identifierNamed
  split
  next hempty => rw [hempty]; rfl
  next => exact ownText_make .identifier head text

/-- A declaration goes by the text of the child that is held as its name. -/
theorem identifierOf_ownText :
    Yields (identifierOf? source (Cst.childAt? "name" children)) fun name =>
      ownText? (name.getD .null) = asText? (.str (Sites.nameText source children)) := by
  unfold Sites.nameText
  cases Cst.childAt? "name" children with
  | none => exact yields_ok rfl
  | some c =>
    intro name hname
    obtain ⟨text, htext, rfl⟩ := map_eq_ok.mp hname
    unfold Source.textOf?
    dsimp only
    rw [htext]
    exact ownText_identifierNamed c.head text

/-! ## Declarations -/

/-- The fields of a declaration with a text for its name, exported or not. -/
structure Declares (heading : Heading) (text : String) (exported : Bool) (fields : Fields) :
    Prop where
  kind : lookup "kind" fields = .int heading.syntaxKind.code
  name : ownText? (lookup "name" fields) = asText? (.str text)
  formed : Text.isWellFormed text = true
  exported : (View.of KindTable.standard fields).exported = exported

/-- A node that declares a name. -/
def IsDeclaration (heading : Heading) (text : String) (exported : Bool) (v : Json) : Prop :=
  ∃ fields, v = .obj fields ∧ Declares heading text exported fields

theorem isDeclaration_make (heading : Heading) (head : CstHead) {all : List ModifierKind}
    {name : Option Json} {text : String} {rest : List (String × Option Json)}
    (hname : ownText? (name.getD .null) = asText? (.str text))
    (hformed : Text.isWellFormed text = true) (hmodifiers : "modifiers" ∉ rest.map Prod.fst)
    (hnames : "name" ∉ rest.map Prod.fst) :
    IsDeclaration heading text (all.contains .exported) (make heading.syntaxKind head
      (("modifiers", modifierNodes all) :: ("name", name) :: rest)) := by
  have hmodifiers' : "modifiers" ∉ (("name", name) :: rest).map Prod.fst := by
    simpa using hmodifiers
  refine ⟨_, rfl, rfl, ?_, hformed, ?_⟩
  · show ownText? (lookup "name" (present (("modifiers", modifierNodes all) ::
      ("name", name) :: rest))) = _
    rw [lookup_present_cons _ _ _ _ hmodifiers', if_neg (by decide),
      lookup_present_cons _ _ _ _ hnames, if_pos rfl]
    exact hname
  · show ((View.itemsOf (lookup "modifiers" (present (("modifiers", modifierNodes all) ::
      ("name", name) :: rest)))).any fun m =>
        View.kindOf KindTable.standard m = some ModifierKind.exported.name) = _
    rw [lookup_present_cons _ _ _ _ hmodifiers', if_pos rfl]
    exact exported_modifierNodes all

variable {inherited : List ModifierKind}

/-- Anything that starts with the modifiers and the name of its heading is a declaration. -/
theorem declared_yields (heading : Heading) {next : Option Json → Option Json → Decoded Json}
    (hnext : ∀ modifiers name, Yields (next modifiers name) fun v => ∃ head rest,
      v = make heading.syntaxKind head (("modifiers", modifiers) :: ("name", name) :: rest) ∧
        "modifiers" ∉ rest.map Prod.fst ∧ "name" ∉ rest.map Prod.fst) :
    Yields (do
        let modifiers ← modifiers source inherited children
        let name ← identifierOf? source (Cst.childAt? "name" children)
        next modifiers name)
      (IsDeclaration heading (Sites.nameText source children)
        (inherited.contains .exported || Sites.carriesExport source children)) := by
  have hgathered : Yields (modifiers source inherited children) fun nodes =>
      ∃ all, nodes = modifierNodes all ∧ all.contains .exported =
        (inherited.contains .exported || Sites.carriesExport source children) :=
    (gatherModifiers_exported inherited).map fun all hall => ⟨all, rfl, hall⟩
  refine hgathered.bind ?_
  rintro _ ⟨all, rfl, hall⟩
  refine identifierOf_ownText.bind fun name hname => (hnext _ name).mono ?_
  rintro _ ⟨head, rest, rfl, hmodifiers, hnames⟩
  rw [← hall]
  exact isDeclaration_make heading head hname (Sites.isWellFormed_nameText source children)
    hmodifiers hnames

variable {head : CstHead} {cs : List ReadNode}

theorem functionDeclaration_declares :
    Yields (functionDeclaration source head cs inherited).result
      (IsDeclaration .functions (Sites.nameText source cs)
        (inherited.contains .exported || Sites.carriesExport source cs)) := by
  unfold functionDeclaration
  simp only [Built.result_bind, Built.result_lift, Built.result_pure]
  refine declared_yields .functions fun modifiers name => ?_
  refine (yields_any _).bind fun typeParameters _ => (yields_any _).bind fun parameters _ => ?_
  refine (yields_any _).bind fun type _ => (yields_any _).bind fun body _ => ?_
  exact yields_ok ⟨head, _, rfl, by simp, by simp⟩

theorem classDeclaration_declares :
    Yields (classDeclaration source head cs inherited).result
      (IsDeclaration .classes (Sites.nameText source cs)
        (inherited.contains .exported || Sites.carriesExport source cs)) := by
  unfold classDeclaration
  simp only [Built.result_bind, Built.result_lift, Built.result_pure]
  refine declared_yields .classes fun modifiers name => ?_
  refine (yields_any _).bind fun typeParameters _ => (yields_any _).bind fun members _ => ?_
  exact yields_ok ⟨head, _, rfl, by simp, by simp⟩

theorem interfaceDeclaration_declares :
    Yields (interfaceDeclaration source head cs inherited)
      (IsDeclaration .interfaces (Sites.nameText source cs)
        (inherited.contains .exported || Sites.carriesExport source cs)) := by
  unfold interfaceDeclaration
  refine declared_yields .interfaces fun modifiers name => ?_
  refine (yields_any _).bind fun typeParameters _ => (yields_any _).bind fun members _ => ?_
  exact yields_pure ⟨head, _, rfl, by simp, by simp⟩

theorem typeAliasDeclaration_declares :
    Yields (typeAliasDeclaration source head cs inherited)
      (IsDeclaration .types (Sites.nameText source cs)
        (inherited.contains .exported || Sites.carriesExport source cs)) := by
  unfold typeAliasDeclaration
  refine declared_yields .types fun modifiers name => ?_
  refine (yields_any _).bind fun typeParameters _ => (yields_any _).bind fun type _ => ?_
  exact yields_pure ⟨head, _, rfl, by simp, by simp⟩

/-! ## Modules -/

/-- The fields of a module with flags, a text for its name and a body. -/
structure Opens (flags : Nat) (text : String) (body : Option Json) (fields : Fields) : Prop where
  kind : lookup "kind" fields = .int SyntaxKind.moduleDeclaration.code
  flags : lookup "flags" fields = .int flags
  name : ownText? (lookup "name" fields) = asText? (.str text)
  body : lookup "body" fields = body.getD .null

/-- A node of a module. -/
def IsModule (flags : Nat) (text : String) (body : Option Json) (v : Json) : Prop :=
  ∃ fields, v = .obj fields ∧ Opens flags text body fields

theorem isModule_outer {flags : Nat} {text : String} {modifiers name body : Option Json}
    (hname : ownText? (name.getD .null) = asText? (.str text)) :
    IsModule flags text body (flagged .moduleDeclaration head flags
      [("modifiers", modifiers), ("name", name), ("body", body)]) := by
  refine ⟨_, rfl, rfl, rfl, ?_, ?_⟩
  · have hfield : lookup "name" (present
        [("modifiers", modifiers), ("name", name), ("body", body)]) = name.getD .null :=
      lookup_present_of_mem (by simp) (by simp)
    show ownText? (lookup "name" (present _)) = _
    rw [hfield]
    exact hname
  · show lookup "body" (present
      [("modifiers", modifiers), ("name", name), ("body", body)]) = _
    exact lookup_present_of_mem (by simp) (by simp)

/-- A module inside another one has no modifiers. -/
theorem isModule_inner {flags : Nat} {text : String} {name body : Option Json}
    (hname : ownText? (name.getD .null) = asText? (.str text)) :
    IsModule flags text body
      (flagged .moduleDeclaration head flags [("name", name), ("body", body)]) := by
  show IsModule flags text body (flagged .moduleDeclaration head flags
    [("modifiers", none), ("name", name), ("body", body)])
  exact isModule_outer hname

end Tree

end DeclCatalogue
