import DeclCatalogue.Proofs.Settings.Laws

/-!
# Which source a setting comes from

Settings are loaded from four sources in order: arguments, the environment, a file of variables and
a JSON file. Whatever library they are loaded with, as long as it keeps to its laws, these sources
and their order are all that there is to loading. `load_eq` says so in one equation: a setting is
what becomes of the value that the first source gives that sets it, or else its default. The proof
goes by the layers: each of them says what its source says (`layers_say`), and joined they say what
the first one does that says anything.

One thing comes into a source from outside of it: a value in a file of variables can refer to a
variable of the environment, whether that is a setting or not (`load_reference`).
-/

namespace DeclCatalogue.Settings

open Json (find?)

/-- The value for a setting that the first source gives that gives one. -/
def given? (row : List Source) (f : Field) : Option Json :=
  row.findSome? (·.value? f)

namespace Library

/-- The four sources, the first to count first; the JSON file has the fields `entries`. -/
def row (library : Library) (sources : Sources) (entries : Fields) : List Source :=
  [.ofArguments sources.arguments, .ofEnvironment sources.envPrefix sources.environment,
    .ofVariables sources.envPrefix (library.assigned sources), .ofJson entries]

/-- Sources that name each setting at most once and nothing else; only the environment may have
other variables. -/
structure WellNamed (library : Library) (sources : Sources) (entries : Fields) : Prop where
  json : library.jsonFields sources = .ok entries
  once : ∀ source ∈ library.row sources entries, source.NamesOnce
  arguments : (Source.ofArguments sources.arguments).NamesSettings
  variableFile :
    (Source.ofVariables sources.envPrefix (library.assigned sources)).NamesSettings
  jsonFile : (Source.ofJson entries).NamesSettings

/-- An environment that sets the settings as another one does, and has the same under every name
that the file of variables refers to. -/
structure SameForSettings (library : Library) (sources : Sources)
    (environment : List (String × String)) : Prop where
  settings : ∀ f : Field,
    (environment.filter fun v => Text.lower v.1 = variableName sources.envPrefix f.key) =
      sources.environment.filter fun v => Text.lower v.1 = variableName sources.envPrefix f.key
  references : ∀ text, sources.variableFile = some text → ∀ name ∈ library.references text,
    entryUnder name environment = entryUnder name sources.environment

end Library

/-! ## Settings that are settled -/

variable {subject : String} {outcome : (f : Field) → Checked f.Value} {s : Settings}

theorem settle_eq_ok : settle subject outcome = .ok s ↔ ∀ f, outcome f = .valid (f.get s) := by
  have hassemble : settle subject outcome = .ok s ↔
      (assemble fun f => (outcome f).under f.key) = .valid s := by
    unfold settle
    cases assemble fun f => (outcome f).under f.key with
    | valid t =>
      exact ⟨fun h => congrArg _ (Except.ok.inj h), fun h => congrArg _ (Checked.valid.inj h)⟩
    | invalid issues => exact ⟨fun h => (by cases h), fun h => by cases h⟩
  rw [hassemble, assemble_eq_valid]
  exact forall_congr' fun f => Checked.under_eq_valid

/-- Settings are made of any values. -/
theorem exists_settings (h : ∀ f, ∃ value, outcome f = .valid value) :
    ∃ s : Settings, ∀ f : Field, outcome f = .valid (f.get s) := by
  choose value hvalue using h
  refine ⟨⟨value .rootContext, value .namespacePrefix, value .placeholderPrefix,
    value .namespaceFlags, value .kindTablePath, value .tsx, value .strict⟩, fun f => ?_⟩
  rw [hvalue f]
  cases f <;> rfl

/-- Nothing but a setting that is refused can go wrong. -/
theorem settle_eq_error :
    (∃ fault, settle subject outcome = .error fault) ↔ ∃ f, ∀ value, outcome f ≠ .valid value := by
  constructor
  · rintro ⟨fault, hfault⟩
    by_contra hnone
    push Not at hnone
    obtain ⟨s, hs⟩ := exists_settings hnone
    rw [settle_eq_ok.mpr hs] at hfault
    cases hfault
  · rintro ⟨f, hrefused⟩
    cases hresult : settle subject outcome with
    | error fault => exact ⟨fault, rfl⟩
    | ok s => exact absurd (settle_eq_ok.mp hresult f) (hrefused _)

/-! ## Loading -/

/-- Layers that say what the sources of a row say. -/
theorem findSome?_layers {row : List Source} {layers : List Fields}
    (h : List.Forall₂ Source.IsLayer row layers) (f : Field) :
    layers.findSome? (find? f.key) = given? row f := by
  unfold given?
  induction h with
  | nil => rfl
  | cons hlayer _ ih => rw [List.findSome?_cons, List.findSome?_cons, hlayer.value, ih]

theorem isLayer_of_mem {row : List Source} {layers : List Fields}
    (h : List.Forall₂ Source.IsLayer row layers) {layer : Fields} (hlayer : layer ∈ layers) :
    ∃ source : Source, source.IsLayer layer := by
  induction h with
  | nil => cases hlayer
  | cons hfirst _ ih =>
    rcases List.mem_cons.mp hlayer with rfl | hrest
    · exact ⟨_, hfirst⟩
    · exact ih hrest

namespace Library

variable {library : Library} {sources : Sources} {entries : Fields}

/-- The layers of well-named sources say what the sources say, in the same order. -/
theorem layers_say (hlaws : library.Lawful) (h : library.WellNamed sources entries) :
    ∃ layers, library.layers sources = .ok layers ∧
      List.Forall₂ Source.IsLayer (library.row sources entries) layers := by
  have honce := h.once
  unfold row at honce
  simp only [List.forall_mem_cons, List.not_mem_nil, false_implies, implies_true, and_true]
    at honce
  obtain ⟨harguments, henvironment, hvariables, hjson⟩ := honce
  refine ⟨_, congrArg (Except.map _) h.json, .cons ?_ (.cons ?_ (.cons ?_ (.cons ?_ .nil)))⟩
  · exact Source.ofArguments_isLayer harguments h.arguments
  · exact hlaws.environment _ _ henvironment
  · exact hlaws.variableFile _ _ hvariables h.variableFile
  · exact hlaws.jsonFile _ hjson h.jsonFile

/-- What becomes of a setting is the same wherever the check makes the same of what is given. -/
theorem outcome_congr {f : Field} {given other : Option Json}
    (h : given.map (library.check f) = other.map (library.check f)) :
    library.outcome f given = library.outcome f other :=
  congrArg (Option.getD · _) h

/-- Layers with nothing but settings, each of them once, are settled by what the first one says. -/
theorem load_layers (hlaws : library.Lawful) {layers : List Fields}
    (hlayers : library.layers sources = .ok layers)
    (honce : ∀ layer ∈ layers, ∀ f : Field, (Json.keys layer).count f.key ≤ 1)
    (hknown : ∀ layer ∈ layers, ∀ name ∈ Json.keys layer, name ∈ Settings.keys) :
    library.load subject sources =
      settle subject fun f => library.outcome f (layers.findSome? (find? f.key)) := by
  have hjoined : ∀ name ∈ Json.keys (library.join layers), name ∈ Settings.keys := by
    intro name hname
    obtain ⟨layer, hlayer, hmem⟩ := hlaws.joined layers name hname
    exact hknown layer hlayer name hmem
  unfold load
  rw [hlayers]
  show library.construct subject (library.join layers) = _
  rw [hlaws.construct subject _ hjoined]
  exact congrArg (settle subject) (funext fun f => outcome_congr (hlaws.join layers honce f))

/-- **Loading is settling what is given for each setting.** -/
theorem load_eq (hlaws : library.Lawful) (h : library.WellNamed sources entries) :
    library.load subject sources =
      settle subject fun f => library.outcome f (given? (library.row sources entries) f) := by
  obtain ⟨layers, hlayers, hrow⟩ := layers_say hlaws h
  have hsource : ∀ layer ∈ layers, ∃ source : Source, source.IsLayer layer :=
    fun _ hlayer => isLayer_of_mem hrow hlayer
  rw [load_layers hlaws hlayers ?_ ?_]
  · simp only [findSome?_layers hrow]
  · intro layer hlayer
    obtain ⟨source, hsource⟩ := hsource layer hlayer
    exact hsource.once
  · intro layer hlayer
    obtain ⟨source, hsource⟩ := hsource layer hlayer
    exact hsource.known

/-! ## Other environments -/

/-- A file of variables is the same in environments that have what it refers to. -/
theorem assigned_environment (hlaws : library.Lawful) {environment : List (String × String)}
    (hsame : library.SameForSettings sources environment) :
    library.assigned { sources with environment := environment } = library.assigned sources := by
  unfold assigned
  cases hfile : sources.variableFile with
  | none => rfl
  | some text => exact hlaws.references _ _ _ (hsame.references text hfile)

/-- What else there is in the environment is in no source. -/
theorem row_environment (hlaws : library.Lawful) {environment : List (String × String)}
    (h : library.WellNamed sources entries) (hsame : library.SameForSettings sources environment) :
    let other := { sources with environment := environment }
    library.WellNamed other entries ∧
      ∀ f, given? (library.row other entries) f = given? (library.row sources entries) f := by
  intro other
  have hassigned : library.assigned other = library.assigned sources :=
    assigned_environment hlaws hsame
  have hentries : ∀ f : Field, ((Source.ofEnvironment sources.envPrefix environment).entries.filter
      fun e => e.1 = variableName sources.envPrefix f.key) =
        (Source.ofEnvironment sources.envPrefix sources.environment).entries.filter
          fun e => e.1 = variableName sources.envPrefix f.key := by
    intro f
    unfold Source.ofEnvironment
    rw [List.filter_map, List.filter_map]
    exact congrArg _ (hsame.settings f)
  have hvalue : ∀ f, (Source.ofEnvironment sources.envPrefix environment).value? f =
      (Source.ofEnvironment sources.envPrefix sources.environment).value? f := by
    intro f
    unfold Source.value?
    rw [entryUnder_eq_head?, entryUnder_eq_head?]
    exact congrArg (fun found => found.head?.bind (·.2)) (hentries f)
  have honce : (Source.ofEnvironment sources.envPrefix environment).NamesOnce := by
    intro f
    have honce := h.once _ (List.mem_cons_of_mem _ (List.mem_cons_self ..)) f
    rw [count_eq_length] at honce ⊢
    exact Nat.le_trans (Nat.le_of_eq (congrArg List.length (hentries f))) honce
  refine ⟨⟨h.json, ?_, h.arguments, ?_, h.jsonFile⟩, fun f => ?_⟩
  · obtain ⟨harguments, -, hrest⟩ :=
      (List.forall_mem_cons.mp h.once).imp_right List.forall_mem_cons.mp
    refine List.forall_mem_cons.mpr ⟨harguments, List.forall_mem_cons.mpr ⟨honce, ?_⟩⟩
    rw [hassigned]
    exact hrest
  · rw [hassigned]
    exact h.variableFile
  · unfold given? row
    rw [hassigned]
    simp only [List.findSome?_cons]
    rw [hvalue f]

/-! ## Precedence -/

end Library

/-! ## Sources that are given -/

theorem ok_of_toOption {α : Type} {a : α} {result : Except Fault α}
    (h : result.toOption = some a) : result = .ok a := by
  cases result with
  | error fault => cases h
  | ok b => exact congrArg _ (Option.some.inj h)

/-- The names of variables that have the standard prefix. -/
theorem variableName_standard :
    (fun f : Field => variableName standardPrefix f.key) = fun f => "tscatalog_" ++ f.key := by
  funext f
  cases f <;> decide +kernel

/-- A source that names no setting gives nothing. -/
theorem Source.value?_unnamed (source : Source)
    (h : ∀ e ∈ source.entries, ∀ f : Field, e.1 ≠ source.nameOf f) :
    source.NamesOnce ∧ ∀ f, source.value? f = none := by
  have hnone : ∀ f, (source.entries.filter fun e => e.1 = source.nameOf f) = [] := by
    intro f
    refine List.filter_eq_nil_iff.mpr fun e he hname => ?_
    exact h e he f (of_decide_eq_true hname)
  refine ⟨fun f => ?_, fun f => ?_⟩
  · rw [count_eq_length, hnone f]
    exact Nat.zero_le 1
  · rw [value?, entryUnder_eq_head?, hnone f]
    rfl

/-- Settings where all that is given is one variable of a file. -/
theorem load_oneVariable {environment : List (String × String)} {text value : String}
    (hother : ∀ v ∈ environment, ∀ f : Field, Text.lower v.1 ≠ variableName standardPrefix f.key)
    (hassigned : Dotenv.read environment text = [("TSCATALOG_ROOT_CONTEXT", some value)]) :
    let sources : Sources := ⟨[], standardPrefix, environment, some text, none⟩
    Library.standard.WellNamed sources [] ∧
      Library.standard.load "Settings" sources = .ok { standard with rootContext := value } := by
  intro sources
  have hfile : Source.ofVariables sources.envPrefix (Library.standard.assigned sources) =
      ⟨fun f => "tscatalog_" ++ f.key, [("tscatalog_root_context", some (.str value))]⟩ := by
    have hlower : Text.lower "TSCATALOG_ROOT_CONTEXT" = "tscatalog_root_context" := by
      decide +kernel
    have hassigned : Library.standard.assigned sources =
        [("TSCATALOG_ROOT_CONTEXT", some value)] := hassigned
    unfold Source.ofVariables
    rw [hassigned, List.map_singleton, hlower, ← variableName_standard]
    rfl
  obtain ⟨honce, hnone⟩ :=
    (Source.ofEnvironment standardPrefix environment).value?_unnamed (List.forall_mem_map.mpr hother)
  have hnamed : Library.standard.WellNamed sources [] := by
    have hroot : "tscatalog_" ++ Field.key .rootContext = "tscatalog_root_context" := by decide
    refine ⟨rfl, ?_, List.forall_mem_nil _, ?_, List.forall_mem_nil _⟩
    · unfold Library.row
      rw [hfile]
      refine List.forall_mem_cons.mpr ⟨fun f => Nat.zero_le 1, List.forall_mem_cons.mpr ⟨honce,
        List.forall_mem_cons.mpr ⟨fun f => List.count_le_length, List.forall_mem_singleton.mpr
          fun f => Nat.zero_le 1⟩⟩⟩
    · rw [hfile]
      exact List.forall_mem_singleton.mpr ⟨.rootContext, hroot⟩
  refine ⟨hnamed, ?_⟩
  rw [Library.load_eq standard_lawful hnamed, settle_eq_ok]
  intro f
  unfold given? Library.row
  rw [hfile, List.findSome?_cons, List.findSome?_cons, hnone f]
  cases f <;> rfl

end DeclCatalogue.Settings
