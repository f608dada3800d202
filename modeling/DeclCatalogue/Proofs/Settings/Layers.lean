import DeclCatalogue.Proofs.Json.Keys
import DeclCatalogue.Settings.Layers
import Mathlib.Data.List.Nodup

/-!
# Looking into layers

A layer of settings is an object, and what matters of it is what is found under a name. The lemmas
here say what that is for the objects that layers are made of: lists with a name in them once
(`entryUnder_reverse`), objects with a field for each name that has a value (`find?_filterMap`),
objects of the first field of each name (`find?_firstOfEach`), and layers that are put over each
other (`find?_join`).
-/

namespace DeclCatalogue

/-- The first entry under a name. -/
def entryUnder {α : Type} (name : String) (entries : List (String × α)) : Option (String × α) :=
  entries.find? fun e => e.1 = name

namespace Settings

open Json (find? setField)

/-! ## Entries -/

theorem entryUnder_eq_head? {α : Type} (name : String) (entries : List (String × α)) :
    entryUnder name entries = (entries.filter fun e => e.1 = name).head? :=
  List.head?_filter.symm

theorem count_eq_length {α : Type} (name : String) (entries : List (String × α)) :
    (entries.map (·.1)).count name = (entries.filter fun e => e.1 = name).length := by
  rw [List.count_eq_length_filter, List.filter_map, List.length_map]
  rfl

/-- Among the entries under a name that is there once it does not matter which one is taken. -/
theorem entryUnder_reverse {α : Type} {entries : List (String × α)} {name : String}
    (h : (entries.map (·.1)).count name ≤ 1) :
    entryUnder name entries.reverse = entryUnder name entries := by
  rw [count_eq_length] at h
  rw [entryUnder_eq_head?, entryUnder_eq_head?, List.filter_reverse]
  generalize entries.filter (fun e => e.1 = name) = found at h
  match found, h with
  | [], _ => rfl
  | [_], _ => rfl

theorem entryUnder_map {α β : Type} (g : α → β) (name : String) (entries : List (String × α)) :
    entryUnder name (entries.map fun e => (e.1, g e.2)) =
      (entryUnder name entries).map fun e => (e.1, g e.2) := by
  unfold entryUnder
  rw [List.find?_map]
  rfl

theorem find?_eq_entryUnder (name : String) (fields : Fields) :
    find? name fields = (entryUnder name fields).map (·.2) := by
  induction fields with
  | nil => rfl
  | cons f rest ih =>
    unfold entryUnder at ih ⊢
    rw [find?, List.find?_cons]
    by_cases hname : f.1 = name
    · rw [if_pos hname, decide_eq_true hname]
      rfl
    · rw [if_neg hname, decide_eq_false hname]
      exact ih

variable {name : String}

/-! ## Objects -/

/-- Objects with a field for each of some names that there is a value for. -/
theorem find?_filterMap {value? : String → Option Json} (names : List String) :
    find? name (names.filterMap fun n => (value? n).map fun v => (n, v)) =
      if name ∈ names then value? name else none := by
  induction names with
  | nil => rfl
  | cons n rest ih =>
    rw [List.filterMap_cons]
    by_cases hname : n = name
    · rw [if_pos (hname ▸ List.mem_cons_self ..)]
      cases hvalue : value? n with
      | none =>
        rw [hname] at hvalue
        simp only [Option.map_none, ih, hvalue, ite_self]
      | some v =>
        rw [← hname, hvalue]
        exact if_pos rfl
    · have hmem : name ∈ n :: rest ↔ name ∈ rest := by simp [Ne.symm hname]
      simp only [hmem]
      cases value? n with
      | none => exact ih
      | some v =>
        refine Eq.trans ?_ ih
        exact if_neg hname

theorem keys_filterMap_sublist {value? : String → Option Json} (names : List String) :
    (Json.keys (names.filterMap fun n => (value? n).map fun v => (n, v))).Sublist names := by
  induction names with
  | nil => exact .slnil
  | cons n rest ih =>
    rw [List.filterMap_cons]
    cases value? n with
    | none => exact ih.cons _
    | some v => exact ih.cons_cons _

theorem find?_firstOfEach (fields : Fields) :
    find? name (Json.firstOfEach fields) = find? name fields := by
  induction fields with
  | nil => rfl
  | cons f rest ih =>
    rw [Json.firstOfEach, find?, find?]
    by_cases hname : f.1 = name
    · rw [if_pos hname, if_pos hname]
    · rw [if_neg hname, if_neg hname, ← ih, find?_eq_entryUnder, find?_eq_entryUnder]
      unfold entryUnder
      rw [List.find?_filter]
      congr 2
      funext g
      by_cases hg : g.1 = name
      · simp [hg, Ne.symm hname]
      · simp [hg]

theorem nodup_firstOfEach (fields : Fields) : (Json.keys (Json.firstOfEach fields)).Nodup := by
  induction fields with
  | nil => exact List.nodup_nil
  | cons f rest ih =>
    refine List.nodup_cons.mpr ⟨fun hmem => ?_, ?_⟩
    · obtain ⟨g, hg, hname⟩ := List.mem_map.mp hmem
      exact of_decide_eq_true (List.mem_filter.mp hg).2 hname
    · exact ih.sublist (List.filter_sublist.map _)

/-- Every name of the first fields is a name of the fields. -/
theorem mem_keys_firstOfEach {fields : Fields} (h : name ∈ Json.keys (Json.firstOfEach fields)) :
    name ∈ Json.keys fields := by
  obtain ⟨v, hv⟩ := Json.exists_find?_of_mem_keys h
  rw [find?_firstOfEach] at hv
  exact List.mem_map_of_mem (Json.mem_of_find? hv)

/-! ## Joined layers -/

/-- What is in an overlay is in the layer in front if that has it, else in the layer behind. -/
theorem find?_overlay {earlier : Fields} (h : (Json.keys earlier).count name ≤ 1)
    (later : Fields) :
    find? name (overlay earlier later) = (find? name earlier).or (find? name later) := by
  -- fields are put in one after the other, so the last one of a name stays
  have hlast : find? name (overlay earlier later) =
      (find? name earlier.reverse).or (find? name later) := by
    clear h
    induction earlier using List.reverseRecOn with
    | nil => rfl
    | append_singleton rest f ih =>
      have hstep : overlay (rest ++ [f]) later = setField f.1 f.2 (overlay rest later) := by
        unfold overlay
        rw [List.foldl_append]
        rfl
      rw [hstep, List.reverse_append, List.reverse_singleton, List.singleton_append]
      by_cases hname : f.1 = name
      · rw [← hname, Json.find?_setField_self, find?, if_pos rfl]
        rfl
      · rw [Json.find?_setField_of_ne (Ne.symm hname), ih, find?, if_neg hname]
  rw [hlast, find?_eq_entryUnder name earlier.reverse, entryUnder_reverse h,
    ← find?_eq_entryUnder]

/-- An overlay does not put a name in again. -/
theorem count_overlay (earlier : Fields) {later : Fields} (h : (Json.keys later).count name ≤ 1) :
    (Json.keys (overlay earlier later)).count name ≤ 1 := by
  induction earlier generalizing later with
  | nil => exact h
  | cons f rest ih =>
    have hfirst : (Json.keys (setField f.1 f.2 later)).count name ≤ 1 := by
      rw [Json.keys_setField]
      split
      next => exact h
      next hnew =>
        rw [List.count_append]
        by_cases hname : f.1 = name
        · have hlater : (Json.keys later).count name = 0 := List.count_eq_zero.mpr (hname ▸ hnew)
          rw [hlater, Nat.zero_add]
          exact List.count_le_length
        · rw [List.count_eq_zero.mpr fun hmem => hname (List.mem_singleton.mp hmem).symm]
          exact h
    exact ih hfirst

/-- An overlay has no other names than its layers. -/
theorem mem_keys_overlay {earlier later : Fields} (h : name ∈ Json.keys (overlay earlier later)) :
    name ∈ Json.keys earlier ∨ name ∈ Json.keys later := by
  induction earlier generalizing later with
  | nil => exact .inr h
  | cons f rest ih =>
    have hstep : name ∈ Json.keys (overlay rest (setField f.1 f.2 later)) := h
    rcases ih hstep with hrest | hlater
    · exact .inl (List.mem_cons_of_mem _ hrest)
    · rw [Json.keys_setField] at hlater
      split at hlater
      · exact .inr hlater
      · rcases List.mem_append.mp hlater with hlater | hfirst
        · exact .inr hlater
        · rw [List.mem_singleton.mp hfirst]
          exact .inl (List.mem_cons_self ..)

/-- **The first layer counts.** What is found in joined layers is what the first layer has that has
anything, if no layer has a name twice. -/
theorem find?_join {layers : List Fields}
    (h : ∀ layer ∈ layers, (Json.keys layer).count name ≤ 1) :
    find? name (join layers) = layers.findSome? (find? name) := by
  have hfold : ∀ joined : Fields, (Json.keys joined).count name ≤ 1 →
      find? name (layers.foldl overlay joined) =
        (find? name joined).or (layers.findSome? (find? name)) := by
    induction layers with
    | nil => exact fun joined _ => (Option.or_none).symm
    | cons layer rest ih =>
      intro joined hjoined
      obtain ⟨hlayer, hrest⟩ := List.forall_mem_cons.mp h
      rw [List.foldl_cons, ih hrest _ (count_overlay joined hlayer), find?_overlay hjoined,
        Option.or_assoc, List.findSome?_cons]
      cases find? name layer <;> rfl
  exact hfold [] (Nat.zero_le _)

/-- Joined layers have no other names than the layers. -/
theorem mem_keys_join {layers : List Fields} (h : name ∈ Json.keys (join layers)) :
    ∃ layer ∈ layers, name ∈ Json.keys layer := by
  have hfold : ∀ joined : Fields, name ∈ Json.keys (layers.foldl overlay joined) →
      name ∈ Json.keys joined ∨ ∃ layer ∈ layers, name ∈ Json.keys layer := by
    clear h
    induction layers with
    | nil => exact fun joined h => .inl h
    | cons layer rest ih =>
      intro joined h
      rcases ih _ h with hoverlay | ⟨other, hother, hname⟩
      · rcases mem_keys_overlay hoverlay with hjoined | hlayer
        · exact .inl hjoined
        · exact .inr ⟨layer, List.mem_cons_self .., hlayer⟩
      · exact .inr ⟨other, List.mem_cons_of_mem _ hother, hname⟩
  rcases hfold [] h with hnone | hlayers
  · cases hnone
  · exact hlayers

end Settings

end DeclCatalogue
