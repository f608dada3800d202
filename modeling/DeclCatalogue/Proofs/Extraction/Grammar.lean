import DeclCatalogue.Proofs.Extraction.Statements
import DeclCatalogue.Proofs.Walk.Session

/-!
# The grammar of an extraction

An extraction asks the parser once, before all else that it does with a source, and the walk of the
tree does not ask it again: `extractSource_grammars`. For a file the grammar is the one of the
settings, unless the ending of its name chooses it: `extractFile_grammars`. Apart from that choice
nothing of an extraction depends on the setting: `extractFile_ending`.
-/

namespace DeclCatalogue

/-- Any event but that a source is given to the parser. -/
def Event.ParsesNothing (e : Event) : Prop :=
  ∀ grammar, e ≠ .parsed grammar

theorem Event.grammars_eq_nil {events : List Event} (h : ∀ e ∈ events, e.ParsesNothing) :
    Event.grammars events = [] := by
  refine List.filterMap_eq_nil_iff.mpr fun e he => ?_
  cases e with
  | parsed grammar => exact absurd rfl (h _ he grammar)
  | _ => rfl

namespace Walker

variable {w : Walker}

theorem collect_parsesNothing (collector : Collector) (node context : Json) :
    (w.collect collector node context).Ensures Event.ParsesNothing (fun _ => True) AnyFault := by
  exact collector_ensures collector node context (fun _ _ h => by cases h)
    (fun _ _ _ h => by cases h) (fun _ _ _ _ _ _ _ h => by cases h) fun _ _ _ _ h => by cases h

theorem walkRule_parsesNothing (w : Walker) :
    WalkRule w (fun _ => Event.ParsesNothing) AnyFault :=
  walkRule_uniform (fun _ _ h => by cases h) (fun _ _ h => by cases h)
    fun collector fields context _ _ _ => collect_parsesNothing collector (.obj fields) context

end Walker

namespace World

variable (world : World) (settings : Settings)

/-! ## Sources -/

/-- The steps of parsing that are left once the parser has answered. -/
def afterParser (bytes : ByteArray) (fileName : Option String) (tsx : Option Bool) : Walk Json :=
  if (world.parsed settings bytes tsx).hasErrors then
    if settings.strict then Walk.fail (.syntaxErrors fileName)
    else do
      Walk.log .warning "Source has syntax errors" [("path", Json.ofText? fileName)]
      Walk.ofBuilt (Tree.build ⟨bytes⟩ fileName (world.parsed settings bytes tsx).root)
  else Walk.ofBuilt (Tree.build ⟨bytes⟩ fileName (world.parsed settings bytes tsx).root)

/-- The parser is asked first. -/
theorem parseSource_eq_emit (bytes : ByteArray) (fileName : Option String) (tsx : Option Bool) :
    world.parseSource bytes (tsx.getD settings.tsx) fileName settings.strict = (do
      Walk.emit (.parsed (settings.grammar tsx))
      world.afterParser settings bytes fileName tsx) :=
  world.parseSource_eq settings bytes fileName tsx

/-- Once the parser has answered, parsing only logs. -/
theorem afterParser_ensures {E : Event → Prop} (hlog : ∀ entry, E (.logged entry))
    (bytes : ByteArray) (fileName : Option String) (tsx : Option Bool) :
    (world.afterParser settings bytes fileName tsx).Ensures E (fun _ => True) Walker.AnyFault := by
  have hbuilt : ∀ built : Tree.Built Json,
      (Walk.ofBuilt built).Ensures E (fun _ => True) Walker.AnyFault := fun built =>
    (Walk.ensures_forEach fun entry _ => Walk.ensures_emit (hlog entry)).bind fun _ _ =>
      Walk.ensures_ofExcept (fun _ _ => trivial) fun _ _ => trivial
  unfold afterParser
  split
  · split
    · exact Walk.ensures_fail trivial
    · exact (Walk.ensures_log hlog).bind fun _ _ => hbuilt _
  · exact hbuilt _

/-- The walk of a tree does not ask the parser. -/
theorem walkTree_parsesNothing (tree : Json) (context : Option Json) :
    (world.walkTree settings none tree context).Ensures Event.ParsesNothing (fun _ => True)
      Walker.AnyFault := by
  unfold walkTree
  refine Walk.Ensures.bind (R := fun _ => True)
    (Walk.ensures_ofExcept (fun _ _ => trivial) fun _ _ => trivial) fun kinds _ => ?_
  exact Walker.tree_ensures (Walker.walkRule_parsesNothing _) _ tree

/-- **A source is parsed once,** with the grammar that is asked for or else the one of the settings.
-/
theorem extractSource_grammars (bytes : ByteArray) (module fileName : Option String)
    (tsx : Option Bool) (drawn : Nat) :
    Event.grammars (world.extractSource settings bytes module fileName tsx drawn).events =
      [settings.grammar tsx] := by
  have hafter := (world.afterParser_ensures settings (fun _ _ h => by cases h) bytes fileName
    tsx).bind fun tree _ => world.walkTree_parsesNothing settings tree (module.map .str)
  unfold extractSource
  rw [parseSource_eq_emit, bind_assoc, Walk.bind_apply_ok rfl]
  exact congrArg (settings.grammar tsx :: ·) (Event.grammars_eq_nil (hafter drawn).1)

/-! ## Files -/

/-- The grammar that the ending of a file's name chooses. -/
def endingChoice (path : String) : Option Bool :=
  if Path.suffix (Path.normalize path) = ".tsx" then some true else none

variable {path : String} {module : Option String} {drawn : Nat}

/-- **A file is parsed once if it can be read,** and else not at all. -/
theorem extractFile_grammars :
    Event.grammars (world.extractFile settings path module drawn).events =
      if world.files.isFile (Path.normalize path) then [settings.grammar (endingChoice path)]
      else [] := by
  unfold extractFile Files.read Files.isFile
  dsimp only
  cases world.files (Path.normalize path) with
  | none => rfl
  | some entry =>
    cases entry with
    | directory => rfl
    | file bytes =>
      rw [Walk.ofExcept_ok, pure_bind, Walk.bind_apply_ok rfl]
      exact world.extractSource_grammars settings bytes module _ _ _

/-- Where the ending of its name chooses the grammar of a file, the setting does not matter. -/
theorem extractFile_ending (h : Path.suffix (Path.normalize path) = ".tsx") (tsx : Bool) :
    world.extractFile { settings with tsx := tsx } path module =
      world.extractFile settings path module := by
  unfold extractFile
  dsimp only
  rw [if_pos h]
  rfl

end World

end DeclCatalogue
