import DeclCatalogue.Proofs.Settings.Layers

/-!
# What a file of variables takes from the environment

A value in a file of variables can refer to other variables, and a reference to one that the file
has not set by then is to a variable of the environment. `Dotenv.references` lists the names that
the values of a file refer to. Nothing else of the environment goes into the file: two environments
that have the same under each of these names give the file the same variables (`read_congr`).
-/

namespace DeclCatalogue.Dotenv

/-- A value is the same wherever the names that it refers to stand for the same. -/
theorem expand_congr {known others : Assignments} {fuel : Nat} {cs : List Char}
    (h : ∀ name ∈ referencesIn fuel cs, entryUnder name known = entryUnder name others) :
    expand known fuel cs = expand others fuel cs := by
  fun_induction referencesIn fuel cs with
  | case1 => rfl
  | case2 => rfl
  | case3 fuel c rest reference after hread ih =>
    obtain ⟨hname, hafter⟩ := List.forall_mem_cons.mp h
    unfold entryUnder at hname
    simp only [expand, hread, hname, ih hafter]
  | case4 fuel c rest hread ih => simp only [expand, hread, ih h]
  | case5 fuel c rest hplain ih =>
    rw [expand, expand, ih h]
    all_goals exact hplain

variable {environment other : List (String × String)}

/-- What the environment has is not asked for where it is set before. -/
theorem entryUnder_known {name : String} (found : Assignments)
    (h : entryUnder name environment = entryUnder name other) :
    entryUnder name (found ++ environment.map fun v => (v.1, some v.2)) =
      entryUnder name (found ++ other.map fun v => (v.1, some v.2)) := by
  unfold entryUnder at h ⊢
  rw [List.find?_append, List.find?_append, List.find?_map, List.find?_map]
  exact congrArg (fun v => (List.find? _ found).or (Option.map _ v)) h

theorem resolve_congr {found assigned : Assignments}
    (h : ∀ name ∈ referencesOf assigned,
      entryUnder name environment = entryUnder name other) :
    resolve environment found assigned = resolve other found assigned := by
  induction assigned generalizing found with
  | nil => rfl
  | cons v rest ih =>
    obtain ⟨name, value⟩ := v
    obtain ⟨hfirst, hrest⟩ := List.forall_mem_append.mp h
    rw [resolve, resolve]
    cases value with
    | none => exact ih hrest
    | some text =>
      have hvalue := expand_congr fun name hname => entryUnder_known found (hfirst name hname)
      rw [Option.map_some, Option.map_some, hvalue]
      exact ih hrest

/-- **Only what a file refers to is taken from the environment.** -/
theorem read_congr {text : String}
    (h : ∀ name ∈ references text, entryUnder name environment = entryUnder name other) :
    read environment text = read other text :=
  resolve_congr h

end DeclCatalogue.Dotenv
