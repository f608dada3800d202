import DeclCatalogue.Extraction
import DeclCatalogue.Proofs.Tree.ConformingTree
import DeclCatalogue.Proofs.Walk.Linked

/-!
# Extractions as walks of statements

An extraction parses a source, reads its concrete tree, links the nodes of the file and walks it.
`extractSource_seen` takes all of this off: to an observer who sees no log an extraction is the walk
of the statements that the children of the root are read as, unless the source is refused or some
text of it cannot be decoded.
-/

namespace DeclCatalogue

/-- The grammar that a source is parsed with. -/
def Settings.grammar (settings : Settings) (tsx : Option Bool) : Grammar :=
  if tsx.getD settings.tsx then .withJsx else .plain

/-- The context of the statements at the top of a source. -/
def Settings.topContext (settings : Settings) (module : Option String) : String :=
  module.getD settings.rootContext

namespace World

/-- A world that counts tokens and in which every source is parsed to one tree. -/
def always (tree : SourceTree) : World :=
  { parser := fun _ _ => ⟨tree, false⟩
    files := fun _ => none
    tokens := Tokens.counted }

/-- What a source is parsed to. -/
def parsed (world : World) (settings : Settings) (bytes : ByteArray) (tsx : Option Bool) :
    ParsedSource :=
  world.parser (settings.grammar tsx) bytes

/-- A source with syntax errors where none are accepted. -/
def Refuses (world : World) (settings : Settings) (bytes : ByteArray) (tsx : Option Bool) : Prop :=
  (world.parsed settings bytes tsx).hasErrors = true ∧ settings.strict = true

instance (world : World) (settings : Settings) (bytes : ByteArray) (tsx : Option Bool) :
    Decidable (world.Refuses settings bytes tsx) :=
  inferInstanceAs (Decidable (_ ∧ _))

/-- The statements at the top of a source. -/
def topStatements (world : World) (settings : Settings) (bytes : ByteArray) (tsx : Option Bool) :
    Decoded (List Json) :=
  (Tree.statementsAmong
    (Tree.readTree ⟨bytes⟩ (world.parsed settings bytes tsx).root).children).result

/-- The statements at the top of a source keep to the schema. -/
theorem topStatements_ok (world : World) (settings : Settings) (bytes : ByteArray)
    (tsx : Option Bool) : Tree.Yields (world.topStatements settings bytes tsx) Tree.NodesOk :=
  Tree.statementsAmong_ok
    (Tree.conforming_readTree ⟨bytes⟩ (world.parsed settings bytes tsx).root).below

/-- The walk of the statements at the top of a source, with a table of kinds that may have to be
loaded first. -/
def statementWalk (world : World) (settings : Settings) (bytes : ByteArray)
    (module fileName : Option String) (tsx : Option Bool) : Walk Unit :=
  if world.Refuses settings bytes tsx then Walk.fail (.syntaxErrors fileName)
  else match world.topStatements settings bytes tsx with
    | .error _ => Walk.fail .undecodable
    | .ok statements => do
      let kinds ← Walk.ofExcept (settings.kindTable world.files)
      (settings.walker kinds world.tokens).statements (.str (settings.topContext module)) statements

section statementWalk

variable (world : World) {settings : Settings} {bytes : ByteArray} {tsx : Option Bool}

/-- A source that is refused is not walked. -/
theorem statementWalk_refused (h : world.Refuses settings bytes tsx)
    (module fileName : Option String) :
    world.statementWalk settings bytes module fileName tsx = Walk.fail (.syntaxErrors fileName) :=
  if_pos h

/-- Nor is one with a text that cannot be decoded. -/
theorem statementWalk_undecodable (haccepts : ¬ world.Refuses settings bytes tsx)
    {fault : DecodeFault} (htop : world.topStatements settings bytes tsx = .error fault)
    (module fileName : Option String) :
    world.statementWalk settings bytes module fileName tsx = Walk.fail .undecodable := by
  unfold statementWalk
  rw [if_neg haccepts, htop]

/-- Any other source is walked statement by statement. -/
theorem statementWalk_ok {kinds : KindTable} (hkinds : settings.kindTable world.files = .ok kinds)
    (haccepts : ¬ world.Refuses settings bytes tsx) {vs : List Json}
    (htop : world.topStatements settings bytes tsx = .ok vs) (module fileName : Option String) :
    world.statementWalk settings bytes module fileName tsx =
      (settings.walker kinds world.tokens).statements (.str (settings.topContext module)) vs := by
  unfold statementWalk
  rw [if_neg haccepts, htop]
  dsimp only
  rw [hkinds, Walk.ofExcept_ok, pure_bind]

end statementWalk

/-- The node of a file with the given statements. -/
def fileOf (head : CstHead) (fileName : Option String) (statements : List Json) : Json :=
  Tree.make .sourceFile head
    [("fileName", fileName.map .str), ("statements", some (.arr statements))]

variable {see : Event → Option Event}

/-- Log entries in a row leave no trace. -/
theorem logged_alike (hsee : Event.Quiet see) (entries : List LogEntry) :
    (Walk.forEach (fun entry => Walk.emit (.logged entry)) entries).Alike see Eq (pure ()) := by
  induction entries with
  | nil => exact Walk.alike_refl _
  | cons entry rest ih => exact ih.skip (hsee.logged entry)

/-- Building is decoding, to one who sees no log. -/
theorem ofBuilt_alike (hsee : Event.Quiet see) {α : Type} (built : Tree.Built α) :
    (Walk.ofBuilt built).Alike see Eq
      (Walk.ofExcept (built.result.mapError fun _ => .undecodable)) := by
  have h := (logged_alike hsee built.log).then fun _ =>
    Walk.ofExcept (built.result.mapError fun _ => .undecodable)
  rw [pure_bind] at h
  exact h

/-- Reading a file is reading its statements. -/
theorem fileNode_result (world : World) (settings : Settings) (bytes : ByteArray)
    (fileName : Option String) (tsx : Option Bool) :
    (Tree.fileNode ⟨bytes⟩ fileName (world.parsed settings bytes tsx).root).result =
      (world.topStatements settings bytes tsx).map
        (fileOf (Tree.readTree ⟨bytes⟩ (world.parsed settings bytes tsx).root).head fileName) := by
  unfold Tree.fileNode topStatements
  simp only [Tree.Built.result_bind, Tree.Built.result_pure]
  cases (Tree.statementsAmong
    (Tree.readTree ⟨bytes⟩ (world.parsed settings bytes tsx).root).children).result <;> rfl

/-- Building the tree of a file is reading and linking it. -/
theorem build_result (world : World) (settings : Settings) (bytes : ByteArray)
    (fileName : Option String) (tsx : Option Bool) :
    (Tree.build ⟨bytes⟩ fileName (world.parsed settings bytes tsx).root).result =
      (world.topStatements settings bytes tsx).map fun statements => Node.linkParents
        (fileOf (Tree.readTree ⟨bytes⟩ (world.parsed settings bytes tsx).root).head fileName
          statements) := by
  unfold Tree.build
  rw [Tree.Built.result_bind, fileNode_result]
  cases world.topStatements settings bytes tsx <;> rfl

/-- The steps of parsing, one after the other. -/
theorem parseSource_eq (world : World) (settings : Settings) (bytes : ByteArray)
    (fileName : Option String) (tsx : Option Bool) :
    world.parseSource bytes (tsx.getD settings.tsx) fileName settings.strict = (do
      Walk.emit (.parsed (settings.grammar tsx))
      if (world.parsed settings bytes tsx).hasErrors then
        if settings.strict then Walk.fail (.syntaxErrors fileName)
        else do
          Walk.log .warning "Source has syntax errors" [("path", Json.ofText? fileName)]
          Walk.ofBuilt (Tree.build ⟨bytes⟩ fileName (world.parsed settings bytes tsx).root)
      else Walk.ofBuilt (Tree.build ⟨bytes⟩ fileName (world.parsed settings bytes tsx).root)) := by
  unfold parseSource parsed Settings.grammar
  cases tsx.getD settings.tsx <;> cases settings.strict <;> rfl

/-- Parsing gives the linked node of the file around its statements. -/
theorem parseSource_alike (hsee : Event.Quiet see) (world : World) (settings : Settings)
    (bytes : ByteArray) (fileName : Option String) (tsx : Option Bool) :
    (world.parseSource bytes (tsx.getD settings.tsx) fileName settings.strict).Alike see Eq
      (if world.Refuses settings bytes tsx then Walk.fail (.syntaxErrors fileName)
      else match world.topStatements settings bytes tsx with
        | .error _ => Walk.fail .undecodable
        | .ok statements => pure (Node.linkParents
          (fileOf (Tree.readTree ⟨bytes⟩ (world.parsed settings bytes tsx).root).head fileName
            statements))) := by
  have hbuilt := ofBuilt_alike hsee
    (Tree.build ⟨bytes⟩ fileName (world.parsed settings bytes tsx).root)
  rw [build_result] at hbuilt
  have hmatch : (Walk.ofExcept (((world.topStatements settings bytes tsx).map
      fun statements => Node.linkParents
        (fileOf (Tree.readTree ⟨bytes⟩ (world.parsed settings bytes tsx).root).head fileName
          statements)).mapError fun _ => Fault.undecodable)) =
      (match world.topStatements settings bytes tsx with
        | .error _ => Walk.fail .undecodable
        | .ok statements => pure (Node.linkParents
          (fileOf (Tree.readTree ⟨bytes⟩ (world.parsed settings bytes tsx).root).head fileName
            statements))) := by
    cases world.topStatements settings bytes tsx <;> rfl
  rw [hmatch] at hbuilt
  rw [parseSource_eq]
  refine Walk.Alike.skip (hsee.parsed _) ?_
  -- the warning about errors that are accepted is not seen
  by_cases herrors : (world.parsed settings bytes tsx).hasErrors = true
  · rw [if_pos herrors]
    by_cases hstrict : settings.strict = true
    · rw [if_pos hstrict, if_pos ⟨herrors, hstrict⟩]
      exact Walk.alike_refl _
    · rw [if_neg hstrict, if_neg fun h => hstrict h.2]
      exact hbuilt.skip (hsee.logged _)
  · rw [if_neg herrors, if_neg fun h => herrors h.1]
    exact hbuilt

/-- **An extraction is the walk of its statements,** to one who sees no log entries. -/
theorem extractSource_seen (hsee : Event.Quiet see) (world : World) (settings : Settings)
    (bytes : ByteArray) (module fileName : Option String) (tsx : Option Bool) :
    (world.extractSource settings bytes module fileName tsx).Alike see Eq
      (world.statementWalk settings bytes module fileName tsx) := by
  have hwalk : ∀ tree, world.walkTree settings none tree (module.map .str) = (do
      let kinds ← Walk.ofExcept (settings.kindTable world.files)
      (settings.walker kinds world.tokens).tree (.str (settings.topContext module)) tree) := by
    intro tree
    cases module <;> rfl
  have hnode := Tree.nodeOf_fileNode ⟨bytes⟩ fileName (world.parsed settings bytes tsx).root
  rw [fileNode_result] at hnode
  unfold extractSource statementWalk
  simp only [hwalk]
  refine ((parseSource_alike hsee world settings bytes fileName tsx).then _).trans ?_
  -- a refused source is not walked at all, and neither is one that cannot be decoded
  split
  · exact Walk.alike_refl _
  · cases htop : world.topStatements settings bytes tsx with
    | error fault => exact Walk.alike_refl _
    | ok statements =>
      dsimp only
      rw [pure_bind]
      refine (Walk.alike_refl _).bind fun kinds _ heq => ?_
      subst heq
      rw [htop] at hnode
      refine (Walker.tree_linkUnder (hnode _ rfl).2 none _).seen.trans ?_
      cases fileName <;> exact Walk.alike_refl _

/-- The same for one who sees no nodes either. -/
theorem extractSource_alike (world : World) (settings : Settings) (bytes : ByteArray)
    (module fileName : Option String) (tsx : Option Bool) :
    (world.extractSource settings bytes module fileName tsx).Alike Event.bare Eq
      (world.statementWalk settings bytes module fileName tsx) :=
  extractSource_seen Event.quiet_bare world settings bytes module fileName tsx

end World

end DeclCatalogue
