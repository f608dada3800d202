import DeclCatalogue.Node.Modifier

/-!
# The modifiers of a node

`Node.modifiers` reads the modifiers off whatever stands under `modifiers`. A modifier is among
them exactly when that is a list with an object in it whose kind is the modifier's: texts and
objects in the place of the list have items too, but none of these is an object.
-/

namespace DeclCatalogue

namespace ModifierKind

theorem ofName?_name (m : ModifierKind) : ofName? m.name = some m := by
  cases m <;> decide

theorem ofName?_eq_some {name : String} {m : ModifierKind} :
    ofName? name = some m ↔ m.name = name := by
  constructor
  · intro h
    have hfound := List.find?_some h
    simpa using hfound
  · rintro rfl
    exact ofName?_name m

theorem ofNode?_eq_some {node : Json} {m : ModifierKind} :
    ofNode? node = some m ↔ node.field "kind" = .str m.name := by
  unfold ofNode?
  split
  next name hkind => rw [ofName?_eq_some, hkind, Json.str.injEq, eq_comm]
  next hkind =>
    constructor
    · intro h
      cases h
    · intro h
      exact absurd h (hkind _)

end ModifierKind

namespace Node

/-- Only a list has items that are objects. -/
theorem items_eq_arr_of_mem {v : Json} {items : List Json} (h : Node.items v = .ok items)
    {node : Json} (hmem : node ∈ items) {name : String} (hkind : node.field "kind" = .str name) :
    v = .arr items := by
  have habsurd : ∀ {α : Type} (text : α → String) (xs : List α),
      node ∈ xs.map (fun x => Json.str (text x)) → False := by
    intro α text xs hx
    obtain ⟨x, -, rfl⟩ := List.mem_map.mp hx
    cases hkind
  cases v with
  | arr vs => rw [Except.ok.inj h]
  | str s =>
    rw [← Except.ok.inj h] at hmem
    exact (habsurd String.ofList _ hmem).elim
  | obj fields =>
    rw [← Except.ok.inj h] at hmem
    exact (habsurd Prod.fst _ hmem).elim
  | _ =>
    simp only [Node.items] at h
    split at h
    · cases h
    · rw [← Except.ok.inj h] at hmem
      cases hmem

/-- A node carries a modifier exactly if its list of modifiers has an object of that kind. -/
theorem contains_modifiers {fields : Fields} {found : List ModifierKind} (m : ModifierKind)
    (h : Node.modifiers (.obj fields) = .ok found) :
    found.contains m = true ↔ ∃ items, Json.lookup "modifiers" fields = .arr items ∧
      ∃ node ∈ items, node.field "kind" = .str m.name := by
  unfold Node.modifiers at h
  simp only [get_obj, bind, Except.bind] at h
  cases hitems : Node.items (Json.lookup "modifiers" fields) with
  | error fault => rw [hitems] at h; cases h
  | ok items =>
    rw [hitems] at h
    rw [← Except.ok.inj h]
    simp only [List.contains_eq_mem, List.mem_filter, decide_eq_true_eq, List.mem_filterMap,
      ModifierKind.mem_all, true_and, ModifierKind.ofNode?_eq_some]
    constructor
    · rintro ⟨node, hmem, hkind⟩
      exact ⟨items, items_eq_arr_of_mem hitems hmem hkind, node, hmem, hkind⟩
    · rintro ⟨items', heq, node, hmem, hkind⟩
      rw [heq] at hitems
      rw [← Except.ok.inj hitems]
      exact ⟨node, hmem, hkind⟩

end Node

end DeclCatalogue
