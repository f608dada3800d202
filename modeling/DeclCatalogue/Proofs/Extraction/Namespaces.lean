import DeclCatalogue.Proofs.Extraction.OpensNames
import DeclCatalogue.Proofs.Extraction.Safety

/-!
# Extracting dotted and nested namespaces

`extractSource_namespaces` compares three extractions of one source that differ in the tree that the
parser makes of it: one of a namespace with a dotted name, one of namespaces that are nested in one
another with the same names in all, and one of the statements in their body, under the last name. The
first two push the names and go on like the third.

A tree is built before anything is walked. If the source is refused, or some text in it cannot be
decoded, then nothing is pushed at all, the names included; `extractSource_namespaces_undecodable`
has such a namespace. The statements in the body are refused or cannot be decoded then either, unless
the text is that of a modifier of a namespace.
-/

namespace DeclCatalogue

/-- What a catalogue and a listener are told: pushes and reports, in order. -/
def Event.calls (events : List Event) : List Event :=
  events.filterMap Event.call

/-- A fault that comes before anything is walked: the source is refused, or some text in it cannot be
decoded. -/
def Fault.IsEarly (fault : Fault) : Prop :=
  fault = .undecodable ∨ ∃ file, fault = .syntaxErrors file

/-- A walk that finds no name ends late. -/
theorem Fault.IsEarly.not_isNameless {fault : Fault} (h : fault.IsEarly) : ¬ fault.IsNameless := by
  rintro ⟨node, rfl⟩
  obtain h | ⟨_, h⟩ := h <;> cases h

/-- A fault of a walk comes late. -/
theorem Fault.IsEarly.not_isExpected {w : Walker} {fault : Fault} (h : fault.IsEarly) :
    ¬ fault.IsExpected w := by
  intro hexpected
  obtain rfl | ⟨_, rfl⟩ := h <;> cases hexpected

/-- An extraction that ends before anything is walked. -/
def Outcome.EndsEarly (outcome : Outcome Unit) : Prop :=
  ∃ fault, outcome.result = .error fault ∧ fault.IsEarly

/-- Two extractions that end in the same way: both well, or both with an error of the same class and
message. -/
def Outcome.EndsLike (outcome other : Outcome Unit) : Prop :=
  outcome.drawn = other.drawn ∧
    outcome.result.mapError Fault.outline = other.result.mapError Fault.outline

/-- What an extraction of namespaces comes to, next to that of the statements in their body. The
condition says that the modifiers of the namespaces can be decoded. -/
structure Outcome.Opens (outcome : Outcome Unit) (names : List String) (decoded : Prop)
    (inner : Outcome Unit) : Prop where
  early : outcome.EndsEarly → Event.calls outcome.events = []
  calls : ¬ outcome.EndsEarly → Event.calls outcome.events =
    names.map (fun name => .pushed (.namespaceName (.str name))) ++ Event.calls inner.events
  result : ¬ outcome.EndsEarly ∨ decoded → outcome.EndsLike inner

namespace World

/-- The same world with a parser that makes this tree of every source. Whether the source has syntax
errors stays as it is. -/
def reparsed (world : World) (root : SourceTree) : World :=
  { world with parser := fun grammar bytes => { world.parser grammar bytes with root := root } }

/-- A tree whose statements are those of a body. -/
def bodyRoot (body : Option SourceTree) : SourceTree :=
  body.getD ParsedSource.empty.root

variable {world : World} {settings : Settings} {bytes : ByteArray} {fileName : Option String}
  {tsx : Option Bool}

/-- The statements at the top of a tree for a body are those of the body. -/
theorem topStatements_bodyRoot (body : Option SourceTree) :
    (world.reparsed (bodyRoot body)).topStatements settings bytes tsx =
      bodyStatements ⟨bytes⟩ body := by
  cases body <;> rfl

/-! ## Extractions that end early -/

/-- An extraction that ends like one that ends early ends early. -/
theorem endsEarly_of_alike {outcome : Outcome Unit} {fault : Fault}
    (h : Walk.ResultsAlike Eq outcome.result (.error fault)) (hearly : fault.IsEarly) :
    outcome.EndsEarly := by
  obtain ⟨other, hother, houtline⟩ := h.eq_error
  rw [Fault.eq_of_outline houtline hearly.not_isNameless] at hother
  exact ⟨fault, hother, hearly⟩

/-- Nothing is pushed or reported in an extraction that ends early. -/
theorem calls_of_endsEarly (world : World) {kinds : KindTable}
    (hkinds : settings.kindTable world.files = .ok kinds) (bytes : ByteArray)
    (module fileName : Option String) (tsx : Option Bool) (drawn : Nat)
    (h : (world.extractSource settings bytes module fileName tsx drawn).EndsEarly) :
    Event.calls (world.extractSource settings bytes module fileName tsx drawn).events = [] := by
  obtain ⟨hevents, -, hresult⟩ :=
    extractSource_seen Event.quiet_call world settings bytes module fileName tsx drawn
  obtain ⟨fault, hfault, hearly⟩ := h
  rw [hfault] at hresult
  unfold Event.calls
  rw [hevents]
  -- a walk that is not silent ends well or with a fault that is not early
  rcases statementWalk_cases world settings kinds hkinds bytes module fileName tsx drawn with
    ⟨-, hwalk⟩ | ⟨-, hwalk | hwalk | ⟨_, hwalk, hexpected⟩⟩
  · rw [hwalk]
    rfl
  · rw [hwalk]
    rfl
  · rw [hwalk] at hresult
    exact hresult.elim
  · rw [hwalk] at hresult
    exact absurd (Fault.isExpected_of_outline hresult hexpected) hearly.not_isExpected

/-! ## Extractions of namespaces -/

section OpensNames

variable {root c : SourceTree} {nodes : List SourceTree} {names : List String}
  {body : Option SourceTree}

/-- The only statement at the top of a tree is the namespace that stands there. -/
theorem topStatements_only (honly : OnlyStatement root.children c)
    (htype : c.type = "internal_module") :
    (world.reparsed root).topStatements settings bytes tsx =
      (Tree.moduleDeclaration ⟨bytes⟩ c.head (c.children.map (Tree.readTree ⟨bytes⟩)) []).result.map
        ([·]) := by
  unfold topStatements
  rw [Tree.children_readTree]
  exact Tree.statementsAmong_only honly htype

/-- The statements at the top of a tree of a single namespace open its names. -/
theorem topStatements_open
    (hmask : commonBits NodeFlag.namespaceModule.bit settings.namespaceFlags ≠ 0)
    (honly : OnlyStatement root.children c) (h : OpensNames ⟨bytes⟩ nodes names body c) :
    Tree.Yields ((world.reparsed root).topStatements settings bytes tsx) fun vs =>
      ∃ us, bodyStatements ⟨bytes⟩ body = .ok us ∧ ∀ context,
        ((settings.walker .standard world.tokens).statements context vs).Alike Event.call Eq (do
          Walker.openNames names
          (settings.walker .standard world.tokens).statements
            (.str ((settings.walker .standard world.tokens).contextUnder "" names)) us) := by
  rw [topStatements_only honly h.type]
  have hopen := Walker.opensNames_open (w := settings.walker .standard world.tokens)
    Event.quiet_call rfl hmask h
  refine hopen.map fun v ⟨us, hus, halike⟩ => ⟨us, hus, fun context => ?_⟩
  rw [Walker.statements_singleton]
  exact halike context

/-- Once its tree is built, an extraction pushes the names and goes on like the extraction of the
body. -/
theorem extractSource_open (hkinds : settings.kindTable world.files = .ok .standard)
    (hmask : commonBits NodeFlag.namespaceModule.bit settings.namespaceFlags ≠ 0)
    (honly : OnlyStatement root.children c) (h : OpensNames ⟨bytes⟩ nodes names body c)
    (haccepts : ¬ (world.reparsed root).Refuses settings bytes tsx) {vs : List Json}
    (htop : (world.reparsed root).topStatements settings bytes tsx = .ok vs)
    (module : Option String) :
    Walk.Alike Event.call Eq ((world.reparsed root).extractSource settings bytes module fileName tsx)
      (do
        Walker.openNames names
        (world.reparsed (bodyRoot body)).extractSource settings bytes
          (some (settings.namespacePrefix ++ names.getLast h.nonempty)) fileName tsx) := by
  obtain ⟨us, hus, hopen⟩ := topStatements_open hmask honly h vs htop
  have hlast : (settings.walker .standard world.tokens).contextUnder "" names =
      settings.namespacePrefix ++ names.getLast h.nonempty := by
    unfold Walker.contextUnder
    rw [List.getLast?_eq_some_getLast h.nonempty]
    rfl
  have hseen := extractSource_seen Event.quiet_call (world.reparsed root) settings bytes module
    fileName tsx
  rw [statementWalk_ok (world.reparsed root) hkinds haccepts htop] at hseen
  -- the body is walked as what it is extracted as
  have hbody := extractSource_seen Event.quiet_call (world.reparsed (bodyRoot body)) settings bytes
    (some (settings.namespacePrefix ++ names.getLast h.nonempty)) fileName tsx
  rw [statementWalk_ok (world.reparsed (bodyRoot body)) hkinds haccepts
    ((topStatements_bodyRoot body).trans hus)] at hbody
  refine (hseen.trans (hopen _)).trans ((Walk.alike_refl _).bind fun _ _ _ => ?_)
  rw [hlast]
  exact hbody.symm

/-- The names come first in what is pushed and reported. -/
theorem calls_open (hkinds : settings.kindTable world.files = .ok .standard)
    (hmask : commonBits NodeFlag.namespaceModule.bit settings.namespaceFlags ≠ 0)
    (honly : OnlyStatement root.children c) (h : OpensNames ⟨bytes⟩ nodes names body c)
    (haccepts : ¬ (world.reparsed root).Refuses settings bytes tsx) {vs : List Json}
    (htop : (world.reparsed root).topStatements settings bytes tsx = .ok vs)
    (module fileName : Option String) (drawn : Nat) :
    let outcome := (world.reparsed root).extractSource settings bytes module fileName tsx drawn
    let inner := (world.reparsed (bodyRoot body)).extractSource settings bytes
      (some (settings.namespacePrefix ++ names.getLast h.nonempty)) fileName tsx drawn
    Event.calls outcome.events =
        names.map (fun name => .pushed (.namespaceName (.str name))) ++ Event.calls inner.events ∧
      outcome.EndsLike inner := by
  intro outcome inner
  obtain ⟨hevents, hdrawn, hresult⟩ :=
    extractSource_open hkinds hmask honly h haccepts htop module drawn
  have hnames : (Walker.openNames names drawn).result = .ok () := by
    rw [Walker.openNames_apply]
  rw [Walk.bind_apply_ok hnames, Walker.openNames_apply] at hevents hdrawn hresult
  refine ⟨?_, hdrawn, hresult.mapError_eq⟩
  have hcalls : (names.map fun name => Event.pushed (.namespaceName (.str name))).filterMap
      Event.call = names.map fun name => .pushed (.namespaceName (.str name)) := by
    rw [List.filterMap_map]
    exact congrFun List.filterMap_eq_map names
  rw [List.filterMap_append, hcalls] at hevents
  exact hevents

/-- Extractions of statements that are walked in the same way end in the same way. -/
theorem endsLike_of_walks {other : SourceTree} {module inner : Option String}
    (hwalk : (world.reparsed root).statementWalk settings bytes module fileName tsx =
      (world.reparsed other).statementWalk settings bytes inner fileName tsx) (drawn : Nat) :
    ((world.reparsed root).extractSource settings bytes module fileName tsx drawn).EndsLike
      ((world.reparsed other).extractSource settings bytes inner fileName tsx drawn) := by
  have hroot := extractSource_seen Event.quiet_call (world.reparsed root) settings bytes module
    fileName tsx
  have hother := extractSource_seen Event.quiet_call (world.reparsed other) settings bytes inner
    fileName tsx
  obtain ⟨-, hdrawn, hresult⟩ := (hroot.trans (hwalk ▸ hother.symm)) drawn
  exact ⟨hdrawn, hresult.mapError_eq⟩

/-- An extraction of namespaces in one another, whether it ends early or not. -/
theorem extractSource_opens (hkinds : settings.kindTable world.files = .ok .standard)
    (hmask : commonBits NodeFlag.namespaceModule.bit settings.namespaceFlags ≠ 0)
    (honly : OnlyStatement root.children c) (h : OpensNames ⟨bytes⟩ nodes names body c)
    (module fileName : Option String) (tsx : Option Bool) (drawn : Nat) :
    ((world.reparsed root).extractSource settings bytes module fileName tsx drawn).Opens names
      (∀ n ∈ nodes, ModifiersDecode ⟨bytes⟩ n)
      ((world.reparsed (bodyRoot body)).extractSource settings bytes
        (some (settings.namespacePrefix ++ names.getLast h.nonempty)) fileName tsx drawn) := by
  have hnothing := calls_of_endsEarly (world.reparsed root) hkinds bytes module fileName tsx drawn
  have hresult := (extractSource_seen Event.quiet_call (world.reparsed root) settings bytes module
    fileName tsx drawn).2.2
  by_cases hrefuses : (world.reparsed root).Refuses settings bytes tsx
  · -- the body is refused as well
    have hbody : (world.reparsed (bodyRoot body)).Refuses settings bytes tsx := hrefuses
    rw [statementWalk_refused _ hrefuses] at hresult
    have hearly := endsEarly_of_alike hresult (.inr ⟨fileName, rfl⟩)
    refine ⟨hnothing, fun hwalked => absurd hearly hwalked, fun _ => endsLike_of_walks ?_ drawn⟩
    rw [statementWalk_refused _ hrefuses, statementWalk_refused _ hbody]
  cases htop : (world.reparsed root).topStatements settings bytes tsx with
  | ok vs =>
    obtain ⟨hcalls, hends⟩ := calls_open hkinds hmask honly h hrefuses htop module fileName drawn
    exact ⟨hnothing, fun _ => hcalls, fun _ => hends⟩
  | error fault =>
    rw [statementWalk_undecodable _ hrefuses htop] at hresult
    have hearly := endsEarly_of_alike hresult (.inl rfl)
    refine ⟨hnothing, fun hwalked => absurd hearly hwalked, fun hdecode =>
      endsLike_of_walks ?_ drawn⟩
    have hmodifiers := hdecode.resolve_left (not_not_intro hearly)
    -- if the modifiers can be decoded, then the statements of the body cannot
    cases hbody : bodyStatements ⟨bytes⟩ body with
    | ok us =>
      obtain ⟨v, hv⟩ := Walker.opensNames_ok h hmodifiers hbody
      rw [topStatements_only honly h.type, hv] at htop
      cases htop
    | error other =>
      have haccepts : ¬ (world.reparsed (bodyRoot body)).Refuses settings bytes tsx := hrefuses
      rw [statementWalk_undecodable _ hrefuses htop,
        statementWalk_undecodable _ haccepts ((topStatements_bodyRoot body).trans hbody)]

end OpensNames

/-- **Dotted namespaces are nested namespaces.** Let one parser make of a source a single namespace
with a dotted name, and another one namespaces in one another, each the only statement in the body of
the one around it, with the same names in all and the same body. With the standard kinds and any mask
that has the bit of namespaces in it, both extractions push the names from the outside to the inside,
and then push, report and end like the extraction of the statements in the body under the prefix and
the last name. The one exception are extractions that end before anything is walked, for a source
that is refused or for a text that cannot be decoded. These push and report nothing, and they end
like the extraction of the statements as long as the modifiers of the namespaces can be decoded. -/
theorem extractSource_namespaces (world : World) (settings : Settings)
    (hkinds : settings.kindTable world.files = .ok .standard)
    (hmask : commonBits NodeFlag.namespaceModule.bit settings.namespaceFlags ≠ 0)
    (bytes : ByteArray) {names : List String} {body : Option SourceTree} {nodes : List SourceTree}
    {dotted nested dottedRoot nestedRoot : SourceTree}
    (hdotted : IsNamespace ⟨bytes⟩ names body dotted)
    (hnested : OpensNames ⟨bytes⟩ nodes names body nested)
    (hdottedRoot : OnlyStatement dottedRoot.children dotted)
    (hnestedRoot : OnlyStatement nestedRoot.children nested)
    (module fileName : Option String) (tsx : Option Bool) (drawn : Nat) :
    let extract (root : SourceTree) (module : Option String) :=
      (world.reparsed root).extractSource settings bytes module fileName tsx drawn
    let inner := extract (bodyRoot body)
      (some (settings.namespacePrefix ++ names.getLast hdotted.nonempty))
    (extract dottedRoot module).Opens names (ModifiersDecode ⟨bytes⟩ dotted) inner ∧
      (extract nestedRoot module).Opens names (∀ n ∈ nodes, ModifiersDecode ⟨bytes⟩ n) inner := by
  intro extract inner
  have hopens := extractSource_opens hkinds hmask hdottedRoot (.single hdotted) module fileName tsx
    drawn
  rw [List.forall_mem_singleton] at hopens
  exact ⟨hopens, extractSource_opens hkinds hmask hnestedRoot hnested module fileName tsx drawn⟩

/-- The node of a namespace whose name stands at the given bytes. -/
def namespaceNode (start stop : Nat) (block : SourceTree) : SourceTree :=
  .node ⟨"internal_module", true, none, 0, 0⟩ ()
    [.node ⟨"identifier", true, some "name", start, stop⟩ () [], block]

/-- A block around a single statement. -/
def blockOf (statement : SourceTree) : SourceTree :=
  .node ⟨"statement_block", true, some "body", 0, 0⟩ () [statement]

/-- An interface whose name stands at the given bytes. -/
def interfaceNode (start stop : Nat) : SourceTree :=
  .node ⟨"interface_declaration", true, none, 0, 0⟩ ()
    [.node ⟨"type_identifier", true, some "name", start, stop⟩ () []]

theorem isNamespace_node {start stop : Nat} {statement : SourceTree} {names : List String}
    {text : String}
    (htext : Source.text ⟨bytes⟩ ⟨"identifier", true, some "name", start, stop⟩ = .ok text)
    (hdotted : IsDotted names text) (hnonempty : names ≠ []) :
    IsNamespace ⟨bytes⟩ names (some (blockOf statement))
      (namespaceNode start stop (blockOf statement)) := by
  have htype : "identifier" ≠ "string" := by decide
  exact ⟨rfl, ⟨_, text, rfl, htype, htext, hdotted⟩, hnonempty, rfl⟩

theorem isDotted_singleton {name : String} (h : IsSegment name) : IsDotted [name] name := by
  refine ⟨fun n hn => List.mem_singleton.mp hn ▸ h, [name.toList], .cons ⟨[], [], ?_⟩ .nil, ?_⟩
  · simp
  · exact (List.intercalate_singleton ..).symm

/-- An interface in a namespace with two segments, and in two namespaces with one segment each: both
extractions push the two names and then the interface. -/
theorem extractSource_namespaces_interface :
    let bytes := "namespace A. B \x7b interface I \x7b\x7d \x7d".toUTF8
    let block := blockOf (interfaceNode 27 28)
    let extract (root : SourceTree) (module : Option String) :=
      ((always ParsedSource.empty.root).reparsed root).extractSource Settings.standard bytes module
        none none 0
    let inner := extract block (some "npm$namespace$B")
    (Event.calls inner.events).length = 1 ∧
    ∀ outcome ∈ [extract (blockOf (namespaceNode 10 14 block)) none,
        extract (blockOf (namespaceNode 10 11 (blockOf (namespaceNode 13 14 block)))) none],
      Event.calls outcome.events =
        [.pushed (.namespaceName (.str "A")), .pushed (.namespaceName (.str "B"))] ++
          Event.calls inner.events := by
  intro bytes block extract inner
  have hA : IsSegment "A" := ⟨by decide, by decide +kernel, by decide⟩
  have hB : IsSegment "B" := ⟨by decide, by decide +kernel, by decide⟩
  have hnames : IsDotted ["A", "B"] "A. B" := by
    refine ⟨?_, [['A'], [' ', 'B']], .cons ⟨[], [], ?_⟩ (.cons ⟨[' '], [], ?_⟩ .nil), by decide⟩
    · exact List.forall_mem_cons.mpr ⟨hA, List.forall_mem_singleton.mpr hB⟩
    · exact ⟨List.forall_mem_nil _, List.forall_mem_nil _, rfl⟩
    · exact ⟨List.forall_mem_singleton.mpr (by decide), List.forall_mem_nil _, rfl⟩
  have hdotted : IsNamespace ⟨bytes⟩ ["A", "B"] (some block) (namespaceNode 10 14 block) :=
    isNamespace_node (by decide +kernel) hnames (by decide)
  have hnested : OpensNames ⟨bytes⟩
      [namespaceNode 10 11 (blockOf (namespaceNode 13 14 block)), namespaceNode 13 14 block]
      ["A", "B"] (some block) (namespaceNode 10 11 (blockOf (namespaceNode 13 14 block))) := by
    refine OpensNames.around
      (isNamespace_node (by decide +kernel) (isDotted_singleton hA) (by decide))
      (.plain rfl) (.single ?_)
    exact isNamespace_node (by decide +kernel) (isDotted_singleton hB) (by decide)
  have hdottedRoot : OnlyStatement (blockOf (namespaceNode 10 14 block)).children
      (namespaceNode 10 14 block) := .plain rfl
  have hnestedRoot : OnlyStatement
      (blockOf (namespaceNode 10 11 (blockOf (namespaceNode 13 14 block)))).children
      (namespaceNode 10 11 (blockOf (namespaceNode 13 14 block))) := .plain rfl
  obtain ⟨hfirst, hsecond⟩ := extractSource_namespaces (always ParsedSource.empty.root)
    Settings.standard rfl (by decide) bytes hdotted hnested hdottedRoot hnestedRoot none none none 0
  -- both extractions succeed
  have hwalked : ∀ {outcome : Outcome Unit}, outcome.result.isOk = true → ¬ outcome.EndsEarly := by
    rintro outcome hok ⟨fault, hfault, -⟩
    rw [hfault] at hok
    cases hok
  refine ⟨by decide +kernel, List.forall_mem_cons.mpr ⟨?_, List.forall_mem_singleton.mpr ?_⟩⟩
  · exact hfirst.calls (hwalked (by decide +kernel))
  · exact hsecond.calls (hwalked (by decide +kernel))

/-- A namespace around an interface whose name cannot be decoded pushes nothing, not even its own
name. A namespace with a modifier that cannot be decoded does not end like what is in its body. -/
theorem extractSource_namespaces_undecodable :
    let bytes := "namespace A \x7b interface ".toUTF8 ++ ⟨#[0xFF]⟩ ++ " \x7b\x7d \x7d".toUTF8
    let extract (root : SourceTree) (module : Option String) :=
      ((always ParsedSource.empty.root).reparsed root).extractSource Settings.standard bytes module
        none none 0
    let block := blockOf (interfaceNode 24 25)
    let outcome := extract (blockOf (namespaceNode 10 11 block)) none
    let empty : SourceTree := .node ⟨"statement_block", true, some "body", 0, 0⟩ () []
    let modified : SourceTree := .node ⟨"internal_module", true, none, 0, 0⟩ ()
      [.node ⟨"accessibility_modifier", true, none, 24, 25⟩ () [],
       .node ⟨"identifier", true, some "name", 10, 11⟩ () [], empty]
    (IsNamespace ⟨bytes⟩ ["A"] (some block) (namespaceNode 10 11 block) ∧
      Event.calls outcome.events = [] ∧
      Event.calls outcome.events ≠ .pushed (.namespaceName (.str "A")) ::
        Event.calls (extract block (some "npm$namespace$A")).events) ∧
    (IsNamespace ⟨bytes⟩ ["A"] (some empty) modified ∧
      (extract (blockOf modified) none).result.isOk = false ∧
      (extract empty (some "npm$namespace$A")).result.isOk = true) := by
  intro bytes extract block outcome empty modified
  have hA : IsSegment "A" := ⟨by decide, by decide +kernel, by decide⟩
  have htype : "identifier" ≠ "string" := by decide
  have htext : Source.text ⟨bytes⟩ ⟨"identifier", true, some "name", 10, 11⟩ = .ok "A" := by
    decide +kernel
  have hnone : Event.calls outcome.events = [] := by decide +kernel
  refine ⟨⟨isNamespace_node htext (isDotted_singleton hA) (by decide), hnone, ?_⟩,
    ⟨rfl, ⟨_, "A", rfl, htype, htext, isDotted_singleton hA⟩, by decide, rfl⟩,
    by decide +kernel, by decide +kernel⟩
  rw [hnone]
  exact List.cons_ne_nil _ _ |>.symm

end World

end DeclCatalogue
