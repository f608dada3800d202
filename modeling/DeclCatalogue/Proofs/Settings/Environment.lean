import DeclCatalogue.Proofs.Settings.Precedence

/-!
# Settings from the environment

Without files, settings come from arguments and from the environment. Variables are looked up in any
case, and of several that are the same setting the last one counts, so that there is no environment
for which it is unclear what it sets: `environmentValue?` is the value that it gives for a setting.

`ofSources_withoutFiles_eq_ok` says which settings are loaded, and `ofSources_withoutFiles_congr`
that nothing but these values matters, also for the faults.
-/

namespace DeclCatalogue.Settings

open Json (find?)

variable {arguments others : Fields} {environment otherEnvironment : List (String × String)}

/-- Arguments and the environment as the only sources. -/
def Sources.withoutFiles (arguments : Fields) (environment : List (String × String)) : Sources where
  arguments := arguments
  envPrefix := standardPrefix
  environment := environment
  variableFile := none
  jsonFile := none

/-- The settings that the environment gives where nothing else is said. -/
def ofEnvironment (environment : List (String × String)) : Except Fault Settings :=
  ofSources (.withoutFiles [] environment)

/-- Variables with their names in lower case. -/
def lowered (environment : List (String × String)) : List (String × String) :=
  environment.map fun v => (Text.lower v.1, v.2)

/-- The value that the environment gives for a setting: that of the last variable for it. -/
def environmentValue? (environment : List (String × String)) (f : Field) : Option Json :=
  (entryUnder ("tscatalog_" ++ f.key) (lowered environment).reverse).map fun v => .str v.2

/-- The environment without the variables for a setting. -/
def withoutVariable (f : Field) (environment : List (String × String)) : List (String × String) :=
  environment.filter fun v => Text.lower v.1 ≠ "tscatalog_" ++ f.key

theorem environmentValue?_eq (environment : List (String × String)) (f : Field) :
    environmentValue? environment f =
      (environment.reverse.find? fun v => Text.lower v.1 = "tscatalog_" ++ f.key).map
        fun v => .str v.2 := by
  unfold environmentValue? entryUnder lowered
  rw [← List.map_reverse, List.find?_map, Option.map_map]
  rfl

theorem find?_environmentLayer (environment : List (String × String)) (f : Field) :
    find? f.key (environmentLayer standardPrefix environment) =
      environmentValue? environment f := by
  have hname : variableName standardPrefix f.key = "tscatalog_" ++ f.key :=
    congrFun variableName_standard f
  unfold environmentLayer
  rw [fromVariables_eq, find?_filterMap, if_pos f.key_mem, hname, environmentValue?_eq]
  unfold lastVariable?
  rw [← List.map_reverse, List.find?_map, Function.comp_def]
  cases environment.reverse.find? _ <;> rfl

/-- What becomes of a setting, by what the arguments and the environment give for it. -/
def outcomeFrom (arguments : Fields) (environment : List (String × String)) (f : Field) :
    Checked f.Value :=
  f.outcome ((find? f.key arguments).or (environmentValue? environment f))

/-- Arguments that name no setting twice and nothing but settings. -/
structure NamesSettingsOnce (arguments : Fields) : Prop where
  once : (Json.keys arguments).Nodup
  known : ∀ name ∈ Json.keys arguments, name ∈ Settings.keys

/-- Loading settles what the arguments and the environment give. -/
theorem ofSources_withoutFiles_eq (h : NamesSettingsOnce arguments)
    (environment : List (String × String)) :
    ofSources (.withoutFiles arguments environment) =
      settle "Settings" (outcomeFrom arguments environment) := by
  have hlayers : Library.standard.layers (.withoutFiles arguments environment) =
      .ok [arguments, environmentLayer standardPrefix environment, [], []] := rfl
  unfold ofSources
  rw [Library.load_layers standard_lawful hlayers ?_ ?_]
  · refine congrArg (settle "Settings") (funext fun f => ?_)
    unfold outcomeFrom
    rw [outcome_standard, List.findSome?_cons, List.findSome?_cons, find?_environmentLayer]
    rcases find? f.key arguments with _ | _ <;>
      rcases environmentValue? environment f with _ | _ <;> rfl
  · simp only [List.forall_mem_cons, List.not_mem_nil, false_implies, implies_true, and_true]
    exact ⟨fun _ => List.nodup_iff_count_le_one.mp h.once _, count_fromVariables _ _,
      fun _ => Nat.zero_le 1, fun _ => Nat.zero_le 1⟩
  · simp only [List.forall_mem_cons, List.not_mem_nil, false_implies, implies_true, and_true]
    exact ⟨h.known, fun _ => mem_keys_fromVariables, List.forall_mem_nil _, List.forall_mem_nil _⟩

/-- Loaded settings are what becomes of each of them. -/
theorem ofSources_withoutFiles_eq_ok (h : NamesSettingsOnce arguments) {s : Settings} :
    ofSources (.withoutFiles arguments environment) = .ok s ↔
      ∀ f : Field, outcomeFrom arguments environment f = .valid (f.get s) := by
  rw [ofSources_withoutFiles_eq h, settle_eq_ok]

/-- Nothing but what becomes of each setting matters. -/
theorem ofSources_withoutFiles_congr (h : NamesSettingsOnce arguments)
    (hothers : NamesSettingsOnce others)
    (hsame : ∀ f, outcomeFrom arguments environment f = outcomeFrom others otherEnvironment f) :
    ofSources (.withoutFiles arguments environment) =
      ofSources (.withoutFiles others otherEnvironment) := by
  rw [ofSources_withoutFiles_eq h, ofSources_withoutFiles_eq hothers]
  exact congrArg _ (funext hsame)

theorem namesSettingsOnce_nil : NamesSettingsOnce [] where
  once := List.nodup_nil
  known := List.forall_mem_nil _

/-- **Each setting has the value that the environment gives it,** or its default. -/
theorem ofEnvironment_eq_ok {s : Settings} :
    ofEnvironment environment = .ok s ↔
      ∀ f : Field, f.outcome (environmentValue? environment f) = .valid (f.get s) :=
  ofSources_withoutFiles_eq_ok namesSettingsOnce_nil

/-- An environment without the variables for a setting gives no value for it, and else the same. -/
theorem environmentValue?_withoutVariable (f g : Field) :
    environmentValue? (withoutVariable f environment) g =
      if g = f then none else environmentValue? environment g := by
  rw [environmentValue?_eq, environmentValue?_eq]
  unfold withoutVariable
  rw [← List.filter_reverse, List.find?_filter]
  split
  next hsame =>
    rw [hsame, List.find?_eq_none.mpr fun v _ => by simp]
    rfl
  next hother =>
    have hnames : "tscatalog_" ++ g.key ≠ "tscatalog_" ++ f.key := by
      revert hother
      cases f <;> cases g <;> decide
    congr 2
    funext v
    by_cases hname : Text.lower v.1 = "tscatalog_" ++ g.key
    · simp [hname, hnames]
    · simp [hname]

end DeclCatalogue.Settings
