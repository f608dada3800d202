import DeclCatalogue.CommandLine.Run
import DeclCatalogue.Proofs.Extraction.Grammar
import DeclCatalogue.Proofs.Extraction.Safety
import DeclCatalogue.Proofs.File.Normalize
import DeclCatalogue.Proofs.Walk.SessionCatalogue
import DeclCatalogue.Proofs.Walk.Tokens

/-!
# The files of a run

A run extracts its files one after the other and hands nothing on from one to the next but the
number of tokens drawn so far. Of a file that is there, the extraction can only fail in ways that
are contained in the file (`extractFile_contained`), and the number of tokens shows in placeholders
only (`extractFile_renumbers`). So only a file that cannot be printed ends the run
(`ending?_runFile`), and up to the first of these each file is run as it would have been from any
other place (`runFiles_forall₂`).
-/

namespace DeclCatalogue

theorem Fault.isContained_outline (fault : Fault) :
    fault.outline.isContained = fault.isContained := by
  cases fault <;> rfl

namespace World

open Walk (Renumbers)

variable (world : World) {settings : Settings} {kinds : KindTable}

/-! ## One file -/

theorem parseSource_renumbers (w : Walker) (shift : Nat) (bytes : ByteArray) (tsx : Bool)
    (fileName : Option String) (strict : Bool) :
    Renumbers w shift (world.parseSource bytes tsx fileName strict)
      (world.parseSource bytes tsx fileName strict) := by
  have hbuilt : ∀ built : Tree.Built Json,
      Renumbers w shift (Walk.ofBuilt built) (Walk.ofBuilt built) := fun built =>
    (Renumbers.forEach fun _ _ => Renumbers.emit (.same _)).bind fun _ => Renumbers.ofExcept _
  unfold parseSource
  generalize (if tsx = true then Grammar.withJsx else Grammar.plain) = grammar
  refine (Renumbers.emit (.same _)).bind fun _ => ?_
  dsimp only
  split
  · split
    · exact (Renumbers.fail _).bind fun _ => hbuilt _
    · exact Renumbers.log.bind fun _ => hbuilt _
  · exact hbuilt _

/-- A table of kinds that can be loaded is the one that is walked with. -/
theorem walkTree_eq (hkinds : settings.kindTable world.files = .ok kinds) (tree : Json)
    (context : Option Json) :
    world.walkTree settings none tree context =
      (settings.walker kinds world.tokens).walk tree context := by
  unfold walkTree
  dsimp only
  rw [hkinds]
  rfl

/-- **Where the extraction of a file starts to count shows in its placeholders only.** -/
theorem extractFile_renumbers (hkinds : settings.kindTable world.files = .ok kinds) (shift : Nat)
    (path : String) (module : Option String) :
    Renumbers (settings.walker kinds world.tokens) shift (world.extractFile settings path module)
      (world.extractFile settings path module) := by
  unfold extractFile extractSource
  refine (Renumbers.ofExcept _).bind fun bytes => Renumbers.log.bind fun _ =>
    (parseSource_renumbers world _ shift _ _ _ _).bind fun tree => ?_
  rw [world.walkTree_eq hkinds]
  exact Walker.tree_renumbers _ shift _ tree

/-- Nothing is pushed under a context that cannot be a key. -/
theorem extractFile_usable (hkinds : settings.kindTable world.files = .ok kinds) (path : String)
    (module : Option String) :
    (world.extractFile settings path module).Ensures Event.IsUsable (fun _ => True)
      Walker.AnyFault := by
  have hlog : ∀ entry : LogEntry, Event.IsUsable (.logged entry) := fun _ _ h => by cases h
  unfold extractFile extractSource
  refine Walk.Ensures.bind (R := fun _ => True)
    (Walk.ensures_ofExcept (fun _ _ => trivial) fun _ _ => trivial) fun bytes _ => ?_
  refine (Walk.ensures_log hlog).bind fun _ _ => ?_
  dsimp only
  rw [parseSource_eq_emit, bind_assoc]
  refine (Walk.ensures_emit fun _ h => by cases h).bind fun _ _ =>
    (world.afterParser_ensures settings hlog _ _ _).bind fun tree _ => ?_
  rw [world.walkTree_eq hkinds]
  exact Walker.tree_ensures (Walker.walkRule_usable _) _ tree

/-- **What can go wrong with a source is contained in it.** -/
theorem extractSource_contained (hkinds : settings.kindTable world.files = .ok kinds)
    {bytes : ByteArray} {module fileName : Option String} {tsx : Option Bool} {drawn : Nat}
    {fault : Fault}
    (hfault : (world.extractSource settings bytes module fileName tsx drawn).result =
      .error fault) : fault.isContained = true := by
  obtain ⟨-, -, halike⟩ := world.extractSource_alike settings bytes module fileName tsx drawn
  rw [hfault] at halike
  -- to one who sees no log entries it is the walk of the statements that fails
  have hwalk : ∀ other, (world.statementWalk settings bytes module fileName tsx drawn).result =
      .error other → other.isContained = true → fault.isContained = true := by
    intro other hother hcontained
    rw [hother] at halike
    have houtline : fault.outline = other.outline := halike
    rw [← Fault.isContained_outline, houtline, Fault.isContained_outline, hcontained]
  rcases world.statementWalk_cases settings kinds hkinds bytes module fileName tsx drawn with
    ⟨-, hrefused⟩ | ⟨-, hundecodable | hok | ⟨other, hended, hexpected⟩⟩
  · exact hwalk _ (congrArg Outcome.result hrefused) rfl
  · exact hwalk _ (congrArg Outcome.result hundecodable) rfl
  · rw [hok] at halike
    exact halike.elim
  · refine hwalk _ hended ?_
    cases hexpected <;> rfl

/-- **What can go wrong with a file that is there is contained in it.** -/
theorem extractFile_contained (hkinds : settings.kindTable world.files = .ok kinds) {path : String}
    (hfile : world.files.isFile (Path.normalize path) = true) {module : Option String}
    {drawn : Nat} {fault : Fault}
    (hfault : (world.extractFile settings path module drawn).result = .error fault) :
    fault.isContained = true := by
  obtain ⟨bytes, hentry⟩ := Files.isFile_eq_true.mp hfile
  have hbytes : world.files.read (Path.normalize path) = .ok bytes := by
    unfold Files.read
    rw [hentry]
  unfold extractFile at hfault
  dsimp only at hfault
  rw [hbytes, Walk.ofExcept_ok, pure_bind, Walk.bind_apply_ok rfl] at hfault
  exact world.extractSource_contained hkinds hfault

/-- Only where a path leads counts. -/
theorem extractFile_congr {path other : String} (h : Path.normalize path = Path.normalize other)
    (settings : Settings) (module : Option String) :
    world.extractFile settings path module = world.extractFile settings other module := by
  unfold extractFile
  rw [h]

end World

namespace CommandLine

/-! ## All files -/

variable {console : Console} {world : World} {options : Options} {settings : Settings}
  {kinds : KindTable}

/-- A run over a single file, however the file ends. -/
theorem runFiles_singleton (console : Console) (world : World) (options : Options)
    (settings : Settings) (drawn : Nat) (path : String) :
    runFiles console world options settings drawn [path] =
      [runFile console world options settings drawn path] := by
  rw [runFiles, runFiles]
  exact ite_self _

/-- Whatever is run is one of the files, from some number of tokens on. -/
theorem mem_runFiles {drawn : Nat} {files : List String} {run : FileRun}
    (h : run ∈ runFiles console world options settings drawn files) :
    ∃ path ∈ files, ∃ before, run = runFile console world options settings before path := by
  induction files generalizing drawn with
  | nil => cases h
  | cons path rest ih =>
    rw [runFiles] at h
    split at h
    · exact ⟨path, List.mem_cons_self .., drawn, List.mem_singleton.mp h⟩
    · rcases List.mem_cons.mp h with rfl | hrest
      · exact ⟨path, List.mem_cons_self .., drawn, rfl⟩
      · obtain ⟨other, hother, hrun⟩ := ih hrest
        exact ⟨other, List.mem_cons_of_mem _ hother, hrun⟩

/-- The paths up to the first that ends a run, that one included. -/
def upTo (ends : String → Bool) : List String → List String
  | [] => []
  | path :: rest => if ends path then [path] else path :: upTo ends rest

/-- **A run comes to the end of its files, or to the first of them that ends it,** if it depends on
the file alone whether it ends the run. Each file is run from some number of tokens on. -/
theorem runFiles_forall₂ {ends : String → Bool} {files : List String}
    (hends : ∀ path ∈ files, ∀ before,
      (runFile console world options settings before path).ending?.isSome = ends path)
    (drawn : Nat) :
    List.Forall₂ (fun path run => ∃ before,
        run = runFile console world options settings before path)
      (upTo ends files) (runFiles console world options settings drawn files) := by
  induction files generalizing drawn with
  | nil => exact .nil
  | cons path rest ih =>
    rw [runFiles, upTo, hends path (List.mem_cons_self ..)]
    split
    · exact .cons ⟨drawn, rfl⟩ .nil
    · exact .cons ⟨drawn, rfl⟩ (ih (fun p hp => hends p (List.mem_cons_of_mem _ hp)) _)

/-- What is extracted from a file is printed if there is no fault in printing it. -/
theorem refused?_runFile (before : Nat) (path : String) :
    let run := runFile console world options settings before path
    run.refused? = run.catalogue?.bind (printFault? console options (Path.normalize path)) := rfl

/-- A file that is there ends the run only if what was extracted from it cannot be printed. -/
theorem ending?_runFile (hkinds : settings.kindTable world.files = .ok kinds) {path : String}
    (hfile : world.files.isFile (Path.normalize path) = true) (before : Nat) :
    let run := runFile console world options settings before path
    run.ending? = run.catalogue?.bind (printFault? console options (Path.normalize path)) := by
  intro run
  unfold FileRun.ending?
  split
  next => rfl
  next fault hfault =>
    have hnone : run.catalogue? = none := by
      unfold FileRun.catalogue?
      rw [hfault]
    rw [if_pos (world.extractFile_contained hkinds hfile hfault), hnone]
    rfl

end CommandLine

end DeclCatalogue
