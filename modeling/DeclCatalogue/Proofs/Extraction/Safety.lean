import DeclCatalogue.Proofs.Extraction.Statements
import DeclCatalogue.Proofs.Fault
import DeclCatalogue.Proofs.Walk.Safety

/-!
# How an extraction can end

Whatever a parser makes of a source, an extraction from it succeeds, refuses the source, cannot
decode a text, or finds a node without a usable name: `extractSource_safe`. The trees that are built
keep to the schema, and walking a tree that does asks for nothing that is not there. All that can
still go wrong comes from the settings: a prefix of placeholders that does not stand for characters
makes no names.

A source is refused, and a text found to be undecodable, before the walk starts. So nothing has been
recorded then.
-/

namespace DeclCatalogue.World

/-- How the walk of the statements of a source ends. -/
theorem statementWalk_cases (world : World) (settings : Settings) (kinds : KindTable)
    (hkinds : settings.kindTable world.files = .ok kinds) (bytes : ByteArray)
    (module fileName : Option String) (tsx : Option Bool) (drawn : Nat) :
    let outcome := world.statementWalk settings bytes module fileName tsx drawn
    (world.Refuses settings bytes tsx ∧ outcome = ⟨[], drawn, .error (.syntaxErrors fileName)⟩) ∨
    (¬ world.Refuses settings bytes tsx ∧
      (outcome = ⟨[], drawn, .error .undecodable⟩ ∨ outcome.result = .ok () ∨
        ∃ fault, outcome.result = .error fault ∧
          fault.IsExpected (settings.walker kinds world.tokens))) := by
  dsimp only
  by_cases hrefuses : world.Refuses settings bytes tsx
  · rw [statementWalk_refused world hrefuses]
    exact .inl ⟨hrefuses, rfl⟩
  · refine .inr ⟨hrefuses, ?_⟩
    have hstatements := topStatements_ok world settings bytes tsx
    cases htop : world.topStatements settings bytes tsx with
    | error fault =>
      rw [statementWalk_undecodable world hrefuses htop]
      exact .inl rfl
    | ok statements =>
      right
      rw [statementWalk_ok world hkinds hrefuses htop]
      have hsafe : ((settings.walker kinds world.tokens).statements
          (.str (settings.topContext module)) statements).Safe
            (settings.walker kinds world.tokens) := by
        rw [Walker.statements_eq_forEach]
        exact Walk.ensures_forEach fun v hv =>
          Walker.statement_safe (hstatements statements htop v hv).2 _
      cases hresult : ((settings.walker kinds world.tokens).statements
          (.str (settings.topContext module)) statements drawn).result with
      | ok value => exact .inl rfl
      | error fault => exact .inr ⟨fault, rfl, (hsafe drawn).2.2 fault hresult⟩

/-- A fault that only a walk can end with is neither a refusal nor that of an undecodable text. -/
theorem isExpected_ne {w : Walker} {fault : Fault} (h : fault.IsExpected w)
    (fileName : Option String) : fault ≠ .syntaxErrors fileName ∧ fault ≠ .undecodable := by
  cases h <;> exact ⟨fun h => (by cases h), fun h => by cases h⟩

/-- **How an extraction can end.** With any table of kinds, for any source and whatever the parser
makes of it, an extraction succeeds, refuses a source with syntax errors, meets a text that cannot
be decoded, or a node without a usable name. It can also refuse to record a placeholder, but only if
the prefix of placeholders does not stand for characters. It refuses a source exactly if it has
syntax errors and none are accepted. If the source is refused or undecodable, nothing has been
pushed or reported. -/
theorem extractSource_safe (world : World) (settings : Settings) (kinds : KindTable)
    (hkinds : settings.kindTable world.files = .ok kinds) (bytes : ByteArray)
    (module fileName : Option String) (tsx : Option Bool) (drawn : Nat) :
    let outcome := world.extractSource settings bytes module fileName tsx drawn
    (outcome.result = .ok () ∨ outcome.result = .error (.syntaxErrors fileName) ∨
      outcome.result = .error .undecodable ∨
      (∃ node, outcome.result = .error (.unresolvableName node)) ∨
      Text.isWellFormed settings.placeholderPrefix = false ∧
        outcome.result = .error .placeholderRefused) ∧
    (outcome.result = .error (.syntaxErrors fileName) ↔ world.Refuses settings bytes tsx) ∧
    (outcome.result = .error (.syntaxErrors fileName) ∨ outcome.result = .error .undecodable →
      Event.pushes outcome.events = [] ∧ Event.exports outcome.events = []) := by
  intro outcome
  obtain ⟨hevents, -, hresult⟩ :=
    extractSource_alike world settings bytes module fileName tsx drawn
  have hsilent : (world.statementWalk settings bytes module fileName tsx drawn).events = [] →
      Event.pushes outcome.events = [] ∧ Event.exports outcome.events = [] := by
    intro hnone
    have hpushes := Event.pushes_bare outcome.events
    have hexports := Event.exports_bare outcome.events
    rw [hevents, hnone] at hpushes hexports
    exact ⟨List.map_eq_nil_iff.mp hpushes.symm, List.map_eq_nil_iff.mp hexports.symm⟩
  rcases statementWalk_cases world settings kinds hkinds bytes module fileName tsx drawn with
    ⟨hrefuses, hwalk⟩ | ⟨haccepts, hwalk | hwalk | ⟨_, hwalk, hexpected⟩⟩ <;> rw [hwalk] at hresult
  · -- the source is refused
    rw [hwalk] at hsilent
    obtain ⟨fault, hfault, houtline⟩ := hresult.eq_error
    have heq := Fault.eq_of_outline houtline fun ⟨_, h⟩ => by cases h
    rw [heq] at hfault
    exact ⟨.inr (.inl hfault), ⟨fun _ => hrefuses, fun _ => hfault⟩, fun _ => hsilent rfl⟩
  · -- some text cannot be decoded
    rw [hwalk] at hsilent
    obtain ⟨fault, hfault, houtline⟩ := hresult.eq_error
    have heq := Fault.eq_of_outline houtline fun ⟨_, h⟩ => by cases h
    rw [heq] at hfault
    refine ⟨.inr (.inr (.inl hfault)), ⟨fun h => ?_, fun h => absurd h haccepts⟩,
      fun _ => hsilent rfl⟩
    cases hfault.symm.trans h
  · -- every statement is walked
    have hok := hresult.eq_ok
    refine ⟨.inl hok, ⟨fun h => ?_, fun h => absurd h haccepts⟩, fun h => ?_⟩
    · cases hok.symm.trans h
    · rcases h with h | h
      · cases hok.symm.trans h
      · cases hok.symm.trans h
  · -- a node has no usable name, or a placeholder is refused
    obtain ⟨fault, hfault, houtline⟩ := hresult.eq_error
    have hexpected := Fault.isExpected_of_outline houtline hexpected
    obtain ⟨hrefused, hundecodable⟩ := isExpected_ne hexpected fileName
    refine ⟨.inr (.inr (.inr ?_)), ⟨fun h => ?_, fun h => absurd h haccepts⟩, fun h => ?_⟩
    · cases hexpected with
      | nameless node => exact .inl ⟨node, hfault⟩
      | placeholder hbroken => exact .inr ⟨hbroken, hfault⟩
    · exact absurd (Except.error.inj (hfault.symm.trans h)) hrefused
    · rcases h with h | h
      · exact absurd (Except.error.inj (hfault.symm.trans h)) hrefused
      · exact absurd (Except.error.inj (hfault.symm.trans h)) hundecodable

/-- A tree that no grammar makes: a function that has its name twice, and a body where a class has
its name. The function is recorded, and the class is the node without a usable name. -/
theorem extractSource_safe_misplaced :
    let name : SourceTree := .node ⟨"identifier", true, some "name", 0, 1⟩ () []
    let world := always (.node ⟨"program", true, none, 0, 2⟩ () [
      .node ⟨"function_declaration", true, some "body", 0, 1⟩ () [name, name],
      .node ⟨"class_declaration", true, none, 0, 2⟩ () [
        .node ⟨"class_body", true, some "name", 1, 1⟩ () [name],
        .node ⟨"identifier", false, some "body", 0, 1⟩ () []]])
    let outcome := world.extractSource Settings.standard "f;".toUTF8 none none none 0
    Settings.standard.kindTable world.files = .ok KindTable.standard ∧
      (Event.pushes outcome.events).length = 1 ∧
      ∃ node, outcome.result = .error (.unresolvableName node) := by
  intro name world outcome
  have hpushes : (Event.pushes outcome.events).length = 1 := by decide +kernel
  have hfailed : outcome.result.toOption = none := by decide +kernel
  obtain ⟨hends, hrefused, hsilent⟩ := extractSource_safe world Settings.standard KindTable.standard
    rfl "f;".toUTF8 none none none 0
  refine ⟨rfl, hpushes, ?_⟩
  have hloud : ¬ (outcome.result = .error (.syntaxErrors none) ∨
      outcome.result = .error .undecodable) := by
    intro hsilenced
    rw [(hsilent hsilenced).1] at hpushes
    cases hpushes
  rw [not_or] at hloud
  rcases hends with hok | hsyntax | hcut | hnameless | ⟨hbroken, -⟩
  · rw [show outcome.result = .ok () from hok] at hfailed
    cases hfailed
  · exact absurd hsyntax hloud.1
  · exact absurd hcut hloud.2
  · exact hnameless
  · have hformed : Text.isWellFormed Settings.standard.placeholderPrefix = true := by
      decide +kernel
    rw [hformed] at hbroken
    cases hbroken

/-- **A placeholder can be refused:** with a prefix that is half a surrogate pair, an import without
a clause ends the extraction with a report on its record. -/
theorem extractSource_refusedPlaceholder :
    let settings := { Settings.standard with
      placeholderPrefix := String.singleton (Text.standIn 0xDCFF) }
    let world := always (.node ⟨"program", true, none, 0, 10⟩ () [
      .node ⟨"import_statement", true, none, 0, 10⟩ () [
        .node ⟨"import", false, none, 0, 6⟩ () [],
        .node ⟨"string", true, some "source", 7, 10⟩ () []]])
    let outcome := world.extractSource settings "import 'x'".toUTF8 none none none 0
    settings.kindTable world.files = .ok KindTable.standard ∧
      outcome.result = .error (.invalid ⟨ImportRecord.subject, [⟨["what"], .notUnicode⟩]⟩) ∧
      Event.pushes outcome.events = [] := by
  intro settings world outcome
  exact ⟨rfl, Fault.eq_error_of_of? (by decide +kernel), by decide +kernel⟩

end DeclCatalogue.World
