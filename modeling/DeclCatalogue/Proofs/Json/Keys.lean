import DeclCatalogue.Json.Basic
import Mathlib.Data.List.Induction

/-!
# The names of an object made of pairs

`Json.ofPairs` makes an object of a list of pairs in which names may come again. Two theorems say
what is in it: its names are those of the pairs, each once and in the order in which they came first
(`keys_ofPairs`), and under each of them is the last value that the list has for it
(`find?_ofPairs`).
-/

namespace DeclCatalogue.Json

/-- The names of the fields of an object, in order. -/
def keys (fields : Fields) : List String :=
  fields.map (·.1)

theorem keys_append (fields others : Fields) : keys (fields ++ others) = keys fields ++ keys others :=
  List.map_append

/-- A name that is there keeps its place, and a new one comes last. -/
theorem keys_setField (key : String) (value : Json) (fields : Fields) :
    keys (setField key value fields) =
      if key ∈ keys fields then keys fields else keys fields ++ [key] := by
  induction fields with
  | nil => rfl
  | cons f rest ih =>
    obtain ⟨k, v⟩ := f
    rw [setField]
    by_cases hk : k = key
    · rw [if_pos hk, if_pos (by simp [keys, hk])]
      rfl
    · rw [if_neg hk]
      show k :: keys (setField key value rest) =
        if key ∈ k :: keys rest then k :: keys rest else k :: keys rest ++ [key]
      rw [ih]
      by_cases hmem : key ∈ keys rest
      · rw [if_pos hmem, if_pos (List.mem_cons_of_mem _ hmem)]
      · rw [if_neg hmem, if_neg (by simp [hmem, Ne.symm hk])]
        rfl

theorem find?_setField_self (key : String) (value : Json) (fields : Fields) :
    find? key (setField key value fields) = some value := by
  induction fields with
  | nil => exact if_pos rfl
  | cons f rest ih =>
    obtain ⟨k, v⟩ := f
    rw [setField]
    by_cases hk : k = key
    · rw [if_pos hk, find?, if_pos hk]
    · rw [if_neg hk, find?, if_neg hk, ih]

theorem find?_setField_of_ne {key other : String} (h : other ≠ key) (value : Json)
    (fields : Fields) : find? other (setField key value fields) = find? other fields := by
  induction fields with
  | nil => exact if_neg (Ne.symm h)
  | cons f rest ih =>
    obtain ⟨k, v⟩ := f
    rw [setField]
    by_cases hk : k = key
    · have hother : k ≠ other := fun e => h (e.symm.trans hk)
      rw [if_pos hk, find?, find?, if_neg hother, if_neg hother]
    · rw [if_neg hk, find?, find?, ih]

variable {pairs : List (String × Json)}

theorem ofPairs_append_singleton (pairs : List (String × Json)) (pair : String × Json) :
    ofPairs (pairs ++ [pair]) = setField pair.1 pair.2 (ofPairs pairs) := by
  unfold ofPairs
  rw [List.foldl_append]
  rfl

/-- **The names of the pairs, each once,** in the order in which they came first. -/
theorem keys_ofPairs (pairs : List (String × Json)) :
    keys (ofPairs pairs) = (keys pairs).eraseDups := by
  induction pairs using List.reverseRecOn with
  | nil => rfl
  | append_singleton rest pair ih =>
    have hlast : keys [pair] = [pair.1] := rfl
    rw [ofPairs_append_singleton, keys_setField, ih, keys_append, hlast, List.eraseDups_append]
    by_cases hmem : pair.1 ∈ keys rest
    · rw [if_pos (List.mem_eraseDups.mpr hmem)]
      simp [List.removeAll, hmem]
    · rw [if_neg (hmem ∘ List.mem_eraseDups.mp)]
      simp [List.removeAll, hmem, List.eraseDups_cons]

/-- **Under each name is its last value.** -/
theorem find?_ofPairs (pairs : List (String × Json)) (key : String) :
    find? key (ofPairs pairs) = find? key pairs.reverse := by
  induction pairs using List.reverseRecOn with
  | nil => rfl
  | append_singleton rest pair ih =>
    rw [ofPairs_append_singleton, List.reverse_append, List.reverse_singleton,
      List.singleton_append]
    show _ = if pair.1 = key then some pair.2 else find? key rest.reverse
    by_cases hk : pair.1 = key
    · rw [if_pos hk, ← hk, find?_setField_self]
    · rw [if_neg hk, find?_setField_of_ne (Ne.symm hk), ih]

/-- What is found under a name is one of the fields. -/
theorem mem_of_find? {key : String} {value : Json} {fields : Fields}
    (h : find? key fields = some value) : (key, value) ∈ fields := by
  induction fields with
  | nil => cases h
  | cons f rest ih =>
    obtain ⟨k, v⟩ := f
    rw [find?] at h
    by_cases hk : k = key
    · rw [if_pos hk] at h
      rw [hk, Option.some.inj h]
      exact List.mem_cons_self ..
    · rw [if_neg hk] at h
      exact List.mem_cons_of_mem _ (ih h)

/-- Something is found under every name that there is. -/
theorem exists_find?_of_mem_keys {key : String} {fields : Fields} (h : key ∈ keys fields) :
    ∃ value, find? key fields = some value := by
  induction fields with
  | nil => cases h
  | cons f rest ih =>
    obtain ⟨k, v⟩ := f
    rw [find?]
    by_cases hk : k = key
    · exact ⟨v, if_pos hk⟩
    · rw [if_neg hk]
      exact ih ((List.mem_cons.mp h).resolve_left (Ne.symm hk))

/-- Under the name of a pair is the value of a pair with this name. -/
theorem exists_find?_ofPairs {key : String} (h : key ∈ keys pairs) :
    ∃ value, find? key (ofPairs pairs) = some value ∧ (key, value) ∈ pairs := by
  have hreverse : key ∈ keys pairs.reverse := by
    unfold keys
    rw [List.map_reverse]
    exact List.mem_reverse.mpr h
  obtain ⟨value, hvalue⟩ := exists_find?_of_mem_keys hreverse
  exact ⟨value, (find?_ofPairs pairs key).trans hvalue, List.mem_reverse.mp (mem_of_find? hvalue)⟩

end DeclCatalogue.Json
