import DeclCatalogue.Proofs.Settings.Fields
import DeclCatalogue.Proofs.Settings.References
import DeclCatalogue.Settings.Library

/-!
# What a library of settings promises

Settings come from four sources, and each of them has names of its own for them: arguments name them
as they are, variables with a prefix and in any case, and a JSON file in any case. A `Source` is
what one of the four says, with its names.

A library turns sources into layers, joins the layers and makes settings of what comes out of that.
`Library.Lawful` is what its documentation says of this, for sources that name each setting at most
once: a layer says what its source says, a file of variables takes from the environment what its
values refer to and nothing else, what is joined is what the first layer says that says anything,
and a setting is what its check makes of the value under its name. The standard library keeps to
these laws (`standard_lawful`).
-/

namespace DeclCatalogue.Settings

open Json (find?)

variable {name : String}

/-! ## Sources -/

/-- What one of the sources says, with the names that it has for the settings. A name can stand
without a value, and then nothing is said of the setting. -/
structure Source where
  nameOf : Field → String
  entries : List (String × Option Json)

namespace Source

/-- The value that a source gives for a setting. -/
def value? (source : Source) (f : Field) : Option Json :=
  (entryUnder (source.nameOf f) source.entries).bind (·.2)

/-- A source names no setting twice. -/
def NamesOnce (source : Source) : Prop :=
  ∀ f, (source.entries.map (·.1)).count (source.nameOf f) ≤ 1

/-- A source names nothing but settings. -/
def NamesSettings (source : Source) : Prop :=
  ∀ e ∈ source.entries, ∃ f, source.nameOf f = e.1

/-- A layer says what a source says, under the names of the settings, and nothing else. -/
structure IsLayer (source : Source) (layer : Fields) : Prop where
  value : ∀ f : Field, find? f.key layer = source.value? f
  once : ∀ f : Field, (Json.keys layer).count f.key ≤ 1
  known : ∀ name ∈ Json.keys layer, name ∈ Settings.keys

/-- Arguments, named as the settings are. -/
def ofArguments (arguments : Fields) : Source where
  nameOf := Field.key
  entries := arguments.map fun a => (a.1, some a.2)

/-- An environment, where settings have a prefix and stand in any case. -/
def ofEnvironment (envPrefix : String) (environment : List (String × String)) : Source where
  nameOf := fun f => variableName envPrefix f.key
  entries := environment.map fun v => (Text.lower v.1, some (.str v.2))

/-- The variables of a file, with the same names as the environment. -/
def ofVariables (envPrefix : String) (assigned : Dotenv.Assignments) : Source where
  nameOf := fun f => variableName envPrefix f.key
  entries := assigned.map fun v => (Text.lower v.1, v.2.map .str)

/-- The fields of a JSON file, where settings stand in any case. -/
def ofJson (entries : Fields) : Source where
  nameOf := Field.key
  entries := entries.map fun e => (Text.lower e.1, some e.2)

/-- A source in which every name has a value. -/
theorem value?_of_fields (source : Source) {fields : Fields}
    (h : source.entries = fields.map fun e => (e.1, some e.2)) (f : Field) :
    source.value? f = find? (source.nameOf f) fields := by
  unfold value?
  rw [h, entryUnder_map, find?_eq_entryUnder]
  cases entryUnder (source.nameOf f) fields <;> rfl

/-- Arguments are a layer as they are. -/
theorem ofArguments_isLayer {arguments : Fields} (honce : (ofArguments arguments).NamesOnce)
    (hknown : (ofArguments arguments).NamesSettings) :
    (ofArguments arguments).IsLayer arguments where
  value := fun f => ((ofArguments arguments).value?_of_fields rfl f).symm
  once := fun f => by
    have honce := honce f
    unfold ofArguments at honce
    rw [List.map_map] at honce
    exact honce
  known := fun name hname => by
    obtain ⟨a, ha, rfl⟩ := List.mem_map.mp hname
    obtain ⟨f, hf⟩ := hknown _ (List.mem_map_of_mem ha)
    exact Field.mem_keys_iff.mpr ⟨f, hf⟩

end Source

/-! ## The laws -/

/-- Settings from what becomes of each of them; `subject` is their name in reports. -/
def settle (subject : String) (outcome : (f : Field) → Checked f.Value) : Except Fault Settings :=
  ((assemble fun f => (outcome f).under f.key).toExcept subject).mapError .invalid

namespace Library

/-- What becomes of a setting, by the value that is given for it. -/
def outcome (library : Library) (f : Field) (given : Option Json) : Checked f.Value :=
  (given.map (library.check f)).getD (.valid (f.get Settings.standard))

/-- What the documentation of a library says of it. -/
structure Lawful (library : Library) : Prop where
  /-- Variables of the environment are found by their prefix and in any case. -/
  environment : ∀ envPrefix environment, (Source.ofEnvironment envPrefix environment).NamesOnce →
    (Source.ofEnvironment envPrefix environment).IsLayer
      (library.environmentLayer envPrefix environment)
  /-- Variables of a file are found in the same way. -/
  variableFile : ∀ envPrefix assigned, (Source.ofVariables envPrefix assigned).NamesOnce →
    (Source.ofVariables envPrefix assigned).NamesSettings →
    (Source.ofVariables envPrefix assigned).IsLayer (library.variableFileLayer envPrefix assigned)
  /-- The fields of a JSON file are found in any case. -/
  jsonFile : ∀ entries, (Source.ofJson entries).NamesOnce → (Source.ofJson entries).NamesSettings →
    (Source.ofJson entries).IsLayer (library.jsonFileLayer entries)
  /-- A file of variables has from the environment what its values refer to. -/
  references : ∀ text environment other,
    (∀ name ∈ library.references text, entryUnder name environment = entryUnder name other) →
    library.assignments environment text = library.assignments other text
  /-- What layers are joined to has no other names than the layers. -/
  joined : ∀ layers, ∀ name ∈ Json.keys (library.join layers),
    ∃ layer ∈ layers, name ∈ Json.keys layer
  /-- Under a name, joined layers have what the first layer has that has anything. Objects under one
  name may be put together from several layers; no check can tell, since no setting is an object. -/
  join : ∀ layers, (∀ layer ∈ layers, ∀ f : Field, (Json.keys layer).count f.key ≤ 1) →
    ∀ f : Field, (find? f.key (library.join layers)).map (library.check f) =
      (layers.findSome? (find? f.key)).map (library.check f)
  /-- Fields with the names of settings are checked one by one. -/
  construct : ∀ subject fields, (∀ name ∈ Json.keys fields, name ∈ Settings.keys) →
    library.construct subject fields = settle subject fun f => library.outcome f (find? f.key fields)

end Library

/-! ## The layers of the standard library -/

/-- The settings that variables set are those that have a value. -/
theorem fromVariables_eq (envPrefix : String) (assigned : Dotenv.Assignments) :
    fromVariables envPrefix assigned = Settings.keys.filterMap fun key =>
      ((lastVariable? (variableName envPrefix key) assigned).join.map .str).map
        fun v => (key, v) := by
  unfold fromVariables
  refine List.filterMap_congr fun key _ => ?_
  rcases lastVariable? (variableName envPrefix key) assigned with _ | _ | value <;> rfl

/-- Where variables are named once, the last one is the one. -/
theorem lastVariable?_eq {assigned : Dotenv.Assignments}
    (h : ((assigned.map fun v => (Text.lower v.1, v.2)).map (·.1)).count name ≤ 1) :
    lastVariable? name assigned =
      (entryUnder name (assigned.map fun v => (Text.lower v.1, v.2))).map (·.2) := by
  rw [← entryUnder_reverse h, ← List.map_reverse]
  unfold lastVariable? entryUnder
  rw [List.find?_map, Option.map_map]
  rfl

/-- The layer of variables has no setting twice. -/
theorem count_fromVariables (envPrefix : String) (assigned : Dotenv.Assignments) (f : Field) :
    (Json.keys (fromVariables envPrefix assigned)).count f.key ≤ 1 := by
  rw [fromVariables_eq]
  exact Nat.le_trans ((keys_filterMap_sublist _).count_le _)
    (List.nodup_iff_count_le_one.mp (by decide) _)

/-- The layer of variables has nothing but settings. -/
theorem mem_keys_fromVariables {envPrefix : String} {assigned : Dotenv.Assignments}
    (h : name ∈ Json.keys (fromVariables envPrefix assigned)) : name ∈ Settings.keys := by
  rw [fromVariables_eq] at h
  exact (keys_filterMap_sublist _).subset h

/-- The layer of variables, for variables that name each setting once. -/
theorem fromVariables_isLayer {envPrefix : String} {assigned : Dotenv.Assignments}
    (honce : (Source.ofVariables envPrefix assigned).NamesOnce) :
    (Source.ofVariables envPrefix assigned).IsLayer (fromVariables envPrefix assigned) := by
  have hlower : (Source.ofVariables envPrefix assigned).entries =
      (assigned.map fun v => (Text.lower v.1, v.2)).map fun e => (e.1, e.2.map .str) := by
    rw [List.map_map]
    rfl
  have hcount : ∀ f : Field, ((assigned.map fun v => (Text.lower v.1, v.2)).map (·.1)).count
      (variableName envPrefix f.key) ≤ 1 := by
    intro f
    have h := honce f
    rw [hlower, List.map_map] at h
    exact h
  refine ⟨fun f => ?_, count_fromVariables envPrefix assigned, fun _ => mem_keys_fromVariables⟩
  rw [fromVariables_eq, find?_filterMap, if_pos f.key_mem, lastVariable?_eq (hcount f)]
  unfold Source.value?
  rw [hlower, entryUnder_map]
  show _ = Option.bind (Option.map _ (entryUnder (variableName envPrefix f.key) _)) _
  rcases entryUnder (variableName envPrefix f.key) _ with _ | ⟨_, _ | _⟩ <;> rfl

theorem environmentLayer_isLayer {envPrefix : String} {environment : List (String × String)}
    (honce : (Source.ofEnvironment envPrefix environment).NamesOnce) :
    (Source.ofEnvironment envPrefix environment).IsLayer
      (environmentLayer envPrefix environment) := by
  have hsource : Source.ofEnvironment envPrefix environment =
      Source.ofVariables envPrefix (environment.map fun v => (v.1, some v.2)) := by
    unfold Source.ofVariables
    rw [List.map_map]
    rfl
  rw [hsource] at honce ⊢
  exact fromVariables_isLayer honce

/-- Variables that are all settings leave no others. -/
theorem strayVariables_eq_nil {envPrefix : String} {assigned : Dotenv.Assignments}
    (h : (Source.ofVariables envPrefix assigned).NamesSettings) :
    strayVariables envPrefix assigned = [] := by
  refine List.filterMap_eq_nil_iff.mpr fun name hname => if_pos ?_
  obtain ⟨v, hv, rfl⟩ := List.mem_map.mp (List.mem_eraseDups.mp hname)
  obtain ⟨f, hf⟩ := h _ (List.mem_map_of_mem hv)
  have hf : variableName envPrefix f.key = Text.lower v.1 := hf
  rw [Bool.or_eq_true]
  exact .inr (List.contains_iff_mem.mpr (hf ▸ List.mem_map_of_mem f.key_mem))

theorem variableFileLayer_isLayer {envPrefix : String} {assigned : Dotenv.Assignments}
    (honce : (Source.ofVariables envPrefix assigned).NamesOnce)
    (hknown : (Source.ofVariables envPrefix assigned).NamesSettings) :
    (Source.ofVariables envPrefix assigned).IsLayer (variableFileLayer envPrefix assigned) := by
  unfold variableFileLayer
  rw [strayVariables_eq_nil hknown, List.append_nil]
  exact fromVariables_isLayer honce

/-- The fields of a JSON file that are all settings are renamed to settings. -/
theorem withSettingNames_eq {entries : Fields} (h : (Source.ofJson entries).NamesSettings) :
    withSettingNames entries =
      Json.firstOfEach (entries.map fun e => (Text.lower e.1, e.2)) := by
  unfold withSettingNames
  refine congrArg Json.firstOfEach (List.map_congr_left fun e he => ?_)
  obtain ⟨f, hf⟩ := h _ (List.mem_map_of_mem he)
  have hknown : Settings.keys.contains (Text.lower e.1) = true :=
    List.contains_iff_mem.mpr (Field.mem_keys_iff.mpr ⟨f, hf⟩)
  dsimp only
  rw [if_pos hknown]

theorem withSettingNames_isLayer {entries : Fields} (h : (Source.ofJson entries).NamesSettings) :
    (Source.ofJson entries).IsLayer (withSettingNames entries) := by
  rw [withSettingNames_eq h]
  have hentries : (Source.ofJson entries).entries =
      (entries.map fun e => (Text.lower e.1, e.2)).map fun e => (e.1, some e.2) := by
    rw [List.map_map]
    rfl
  refine ⟨fun f => ?_, fun f => ?_, fun name hname => ?_⟩
  · rw [find?_firstOfEach]
    exact ((Source.ofJson entries).value?_of_fields hentries f).symm
  · exact List.nodup_iff_count_le_one.mp (nodup_firstOfEach _) _
  · obtain ⟨e, he, rfl⟩ := List.mem_map.mp (mem_keys_firstOfEach hname)
    have hmem : (e.1, some e.2) ∈ (Source.ofJson entries).entries := by
      rw [hentries]
      exact List.mem_map_of_mem he
    obtain ⟨f, hf⟩ := h _ hmem
    exact Field.mem_keys_iff.mpr ⟨f, hf⟩

/-! ## The standard library -/

theorem outcome_standard (f : Field) (given : Option Json) :
    Library.standard.outcome f given = f.outcome given := by
  cases given <;> rfl

/-- **The standard library keeps to the laws.** -/
theorem standard_lawful : Library.standard.Lawful where
  environment := fun _ _ => environmentLayer_isLayer
  variableFile := fun _ _ => variableFileLayer_isLayer
  jsonFile := fun _ _ => withSettingNames_isLayer
  references := fun _ _ _ => Dotenv.read_congr
  joined := fun _ _ => mem_keys_join
  join := fun layers honce f =>
    congrArg (Option.map _) (find?_join fun layer hlayer => honce layer hlayer f)
  construct := fun subject fields hknown => by
    show ((ofFields fields).toExcept subject).mapError Fault.invalid = settle subject _
    rw [ofFields_eq hknown, known_eq_assemble]
    simp only [outcome_standard]
    rfl

end DeclCatalogue.Settings
