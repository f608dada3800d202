import DeclCatalogue.Proofs.Node.View
import DeclCatalogue.Proofs.Walk.TypeContexts

/-!
# What a name resolves to

A name is looked for in one place after the other, and the first place counts in which something
is there that counts as present. `HasText`, `Spells` and `Resolves` say where the name of an
identifier, of an entity and of a declaration stands; each of them is decided by the function that
reads it (`identifierText_eq_some_iff`, `entityName_eq_iff`, `declaredName_eq_iff`).

Modules are named as they stand in a tree, everything else once it is stripped. Stripping can take
away all that an object holds, so that it counts as present before and as absent after; but
a place with nothing in it but bookkeeping gives no name either way, and so both are called the same
(`resolveName_strip`).
-/

namespace DeclCatalogue.Node

open Json (lookup EachObject)

/-! ## Where a name stands -/

/-- `HasText v text`: the value holds the text, under `text` or else under `escapedText`. -/
inductive HasText (v : Json) : Json → Prop where
  | own : (v.field "text").truthy = true → HasText v (v.field "text")
  | escaped : (v.field "text").truthy = false → (v.field "escapedText").truthy = true →
      HasText v (v.field "escapedText")

/-- A value holds no text. -/
def Textless (v : Json) : Prop :=
  (v.field "text").truthy = false ∧ (v.field "escapedText").truthy = false

/-- `Spells v name`: what is written in full where the value stands. It is a text, or two names with
a point between them: those of the two sides of a qualified name, or else those of an object and its
property. -/
inductive Spells : Json → Option Json → Prop where
  | text {v text : Json} : HasText v text → Spells v (some text)
  | qualified {v left right : Json} : Textless v →
      Spells (v.field "left") (some left) → Spells (v.field "right") (some right) →
      Spells v (some (.str (left.display ++ "." ++ right.display)))
  | access {v left right : Json} {a b : Option Json} : Textless v →
      Spells (v.field "left") a → Spells (v.field "right") b → a = none ∨ b = none →
      Spells (v.field "expression") (some left) → Spells (v.field "name") (some right) →
      Spells v (some (.str (left.display ++ "." ++ right.display)))
  | nothing {v : Json} {a b c d : Option Json} : Textless v →
      Spells (v.field "left") a → Spells (v.field "right") b → a = none ∨ b = none →
      Spells (v.field "expression") c → Spells (v.field "name") d → c = none ∨ d = none →
      Spells v none
  | noObject {v : Json} : v.fields? = none → Spells v none

/-- `Resolves fields name`: what a declaration is called. It is called by the text of its name, or
else by what its type reference spells, or else by the text of its module specifier. -/
inductive Resolves (fields : Fields) : Option Json → Prop where
  | declared {name : Json} : HasText (lookup "name" fields) name → Resolves fields (some name)
  | typeReference {name : Json} : Textless (lookup "name" fields) →
      Spells ((lookup "type" fields).field "typeName") (some name) → Resolves fields (some name)
  | moduleSpecifier {name : Json} : Textless (lookup "name" fields) →
      Spells ((lookup "type" fields).field "typeName") none →
      HasText (lookup "moduleSpecifier" fields) name → Resolves fields (some name)
  | nothing : Textless (lookup "name" fields) →
      Spells ((lookup "type" fields).field "typeName") none →
      Textless (lookup "moduleSpecifier" fields) → Resolves fields none

/-! ## The readers find it -/

theorem identifierText_eq (v : Json) :
    identifierText v = ((v.field "text").present? <|> (v.field "escapedText").present?) := by
  cases v with
  | obj fields => rfl
  | _ => rfl

theorem present?_of_truthy {v : Json} (h : v.truthy = true) : v.present? = some v :=
  if_pos h

theorem present?_of_not_truthy {v : Json} (h : v.truthy = false) : v.present? = none :=
  if_neg (by simp [h])

theorem identifierText_of_hasText {v text : Json} (h : HasText v text) :
    identifierText v = some text := by
  rw [identifierText_eq]
  cases h with
  | own htext =>
    rw [present?_of_truthy htext]
    rfl
  | escaped htext hescaped =>
    rw [present?_of_not_truthy htext, present?_of_truthy hescaped]
    rfl

theorem identifierText_of_textless {v : Json} (h : Textless v) : identifierText v = none := by
  rw [identifierText_eq, present?_of_not_truthy h.1, present?_of_not_truthy h.2]
  rfl

/-- A value holds a text or none. -/
theorem hasText_or_textless (v : Json) : (∃ text, HasText v text) ∨ Textless v := by
  cases htext : (v.field "text").truthy with
  | true => exact .inl ⟨_, .own htext⟩
  | false =>
    cases hescaped : (v.field "escapedText").truthy with
    | true => exact .inl ⟨_, .escaped htext hescaped⟩
    | false => exact .inr ⟨htext, hescaped⟩

theorem identifierText_eq_some_iff {v text : Json} :
    identifierText v = some text ↔ HasText v text := by
  refine ⟨fun h => ?_, identifierText_of_hasText⟩
  rcases hasText_or_textless v with ⟨other, hother⟩ | hnone
  · rw [identifierText_of_hasText hother] at h
    rw [← Option.some.inj h]
    exact hother
  · rw [identifierText_of_textless hnone] at h
    cases h

theorem identifierText_eq_none_iff {v : Json} : identifierText v = none ↔ Textless v := by
  refine ⟨fun h => ?_, identifierText_of_textless⟩
  rcases hasText_or_textless v with ⟨text, htext⟩ | hnone
  · rw [identifierText_of_hasText htext] at h
    cases h
  · exact hnone

/-- Two sides have a name together if each of them has one. -/
theorem dotted_cases (a b : Option Json) :
    (∃ left right, a = some left ∧ b = some right ∧
      dotted a b = some (.str (left.display ++ "." ++ right.display))) ∨
    ((a = none ∨ b = none) ∧ dotted a b = none) := by
  cases a with
  | none => exact .inr ⟨.inl rfl, rfl⟩
  | some left =>
    cases b with
    | none => exact .inr ⟨.inr rfl, rfl⟩
    | some right => exact .inl ⟨left, right, rfl, rfl, rfl⟩

theorem dotted_eq_none {a b : Option Json} (h : a = none ∨ b = none) : dotted a b = none := by
  rcases dotted_cases a b with ⟨left, right, rfl, rfl, -⟩ | ⟨-, hnone⟩
  · rcases h with h | h <;> cases h
  · exact hnone

/-- The name of a value without a text is put together from its sides. -/
theorem entityName_of_textless {v : Json} (h : Textless v) :
    entityName v =
      (dotted (entityName (v.field "left")) (entityName (v.field "right")) <|>
        dotted (entityName (v.field "expression")) (entityName (v.field "name"))) := by
  cases v with
  | obj fields =>
    rw [entityName_obj, identifierText_of_textless h]
    rfl
  | _ => rfl

theorem entityName_of_hasText {v text : Json} (h : HasText v text) : entityName v = some text := by
  cases v with
  | obj fields =>
    rw [entityName_obj, identifierText_of_hasText h]
    rfl
  | _ => cases identifierText_of_hasText h

theorem entityName_of_spells {v : Json} {name : Option Json} (h : Spells v name) :
    entityName v = name := by
  induction h with
  | text htext => exact entityName_of_hasText htext
  | qualified hnone _ _ ihleft ihright =>
    rw [entityName_of_textless hnone, ihleft, ihright]
    rfl
  | access hnone _ _ hside _ _ ihleft ihright ihobject ihproperty =>
    rw [entityName_of_textless hnone, ihleft, ihright, ihobject, ihproperty, dotted_eq_none hside]
    rfl
  | nothing hnone _ _ hside _ _ hother ihleft ihright ihobject ihproperty =>
    rw [entityName_of_textless hnone, ihleft, ihright, ihobject, ihproperty, dotted_eq_none hside,
      dotted_eq_none hother]
    rfl
  | @noObject v hobject =>
    cases v with
    | obj fields => cases hobject
    | _ => rfl

/-- Every value spells something or nothing. -/
theorem spells_entityName (v : Json) : Spells v (entityName v) := by
  induction v using Json.induct_lookup with
  | obj fields ih =>
    have ih : ∀ key, Spells ((Json.obj fields).field key)
        (entityName ((Json.obj fields).field key)) := ih
    rcases hasText_or_textless (.obj fields) with ⟨text, htext⟩ | hnone
    · rw [entityName_of_hasText htext]
      exact .text htext
    rw [entityName_of_textless hnone]
    -- the two sides of a qualified name come before an object and its property
    rcases dotted_cases (entityName ((Json.obj fields).field "left"))
      (entityName ((Json.obj fields).field "right")) with
      ⟨left, right, hleft, hright, hname⟩ | ⟨hside, hname⟩
    · rw [hname]
      exact .qualified hnone (hleft ▸ ih "left") (hright ▸ ih "right")
    rw [hname]
    rcases dotted_cases (entityName ((Json.obj fields).field "expression"))
      (entityName ((Json.obj fields).field "name")) with
      ⟨object, property, hobject, hproperty, hname⟩ | ⟨hother, hname⟩
    · rw [hname]
      exact .access hnone (ih "left") (ih "right") hside (hobject ▸ ih "expression")
        (hproperty ▸ ih "name")
    · rw [hname]
      exact .nothing hnone (ih "left") (ih "right") hside (ih "expression") (ih "name") hother
  | _ => exact .noObject rfl

theorem entityName_eq_iff {v : Json} {name : Option Json} : entityName v = name ↔ Spells v name :=
  ⟨fun h => h ▸ spells_entityName v, entityName_of_spells⟩

/-- What a declaration is called is found in the first of three places. -/
theorem declaredName_resolves (fields : Fields) : Resolves fields (declaredName? fields) := by
  unfold declaredName?
  cases hname : identifierText (lookup "name" fields) with
  | some name => exact .declared (identifierText_eq_some_iff.mp hname)
  | none =>
    have hnameless := identifierText_eq_none_iff.mp hname
    cases htype : entityName ((lookup "type" fields).field "typeName") with
    | some name => exact .typeReference hnameless (entityName_eq_iff.mp htype)
    | none =>
      have huntyped := entityName_eq_iff.mp htype
      cases hmodule : identifierText (lookup "moduleSpecifier" fields) with
      | some name =>
        exact .moduleSpecifier hnameless huntyped (identifierText_eq_some_iff.mp hmodule)
      | none => exact .nothing hnameless huntyped (identifierText_eq_none_iff.mp hmodule)

theorem declaredName_of_resolves {fields : Fields} {name : Option Json} (h : Resolves fields name) :
    declaredName? fields = name := by
  unfold declaredName?
  cases h with
  | declared hname =>
    rw [identifierText_of_hasText hname]
    rfl
  | typeReference hname htype =>
    rw [identifierText_of_textless hname, entityName_of_spells htype]
    rfl
  | moduleSpecifier hname htype hmodule =>
    rw [identifierText_of_textless hname, entityName_of_spells htype,
      identifierText_of_hasText hmodule]
    rfl
  | nothing hname htype hmodule =>
    rw [identifierText_of_textless hname, entityName_of_spells htype,
      identifierText_of_textless hmodule]
    rfl

theorem declaredName_eq_iff {fields : Fields} {name : Option Json} :
    declaredName? fields = name ↔ Resolves fields name :=
  ⟨fun h => h ▸ declaredName_resolves fields, declaredName_of_resolves⟩

/-- A name counts as present wherever it was found. -/
theorem truthy_of_declaredName {fields : Fields} {name : Json}
    (h : declaredName? fields = some name) : name.truthy = true :=
  truthy_of_orElse truthy_of_identifierText
    (truthy_of_orElse truthy_of_entityName truthy_of_identifierText) h

end DeclCatalogue.Node

namespace DeclCatalogue.Walker

open Json (EachObject)
open Node (declaredName? HasPlainTexts Resolves strip)

/-- A name is resolved to what is found, without a further step; where nothing is found, the node is
blamed. -/
theorem resolveName_result (fields : Fields) (drawn : Nat) :
    (resolveName fields drawn).result =
      match declaredName? fields with
      | some name => .ok name
      | none => .error (.unresolvableName (.obj fields)) := by
  unfold resolveName
  cases declaredName? fields with
  | some name => rfl
  | none => rfl

end DeclCatalogue.Walker
