import DeclCatalogue.Cst.Document
import DeclCatalogue.File.Store
import DeclCatalogue.Settings.Library
import DeclCatalogue.Tree.SourceFile
import DeclCatalogue.Walk.Session

/-!
# Extraction

From the bytes of a source to the records of its declarations: the parser makes a concrete tree,
the tree is read into syntax nodes, and these are walked. The parser, the files and the tokens are
given from outside.
-/

namespace DeclCatalogue

/-- What an extraction takes from outside: a parser, the files that it may read, and a source of
tokens. -/
structure World where
  parser : Grammar → ByteArray → ParsedSource
  files : Files
  tokens : Tokens

/-- A world that counts tokens and whose parser knows a list of sources with what is made of each,
in either grammar, the last one counting. To it any other source is one without statements. -/
def World.ofParsed (known : List (ByteArray × ParsedSource)) (files : Files) : World :=
  { parser := fun _ bytes =>
      ((known.reverse.find? fun k => k.1 == bytes).map (·.2)).getD ParsedSource.empty
    files := files
    tokens := Tokens.counted }

/-- The step that builds a tree: its log entries, and the tree. -/
def Walk.ofBuilt {α : Type} (built : Tree.Built α) : Walk α := do
  Walk.forEach (fun entry => Walk.emit (.logged entry)) built.log
  Walk.ofExcept (built.result.mapError fun _ => .undecodable)

/-- Reads a kind table from a file. -/
def KindTable.load (files : Files) (path : String) : Except Fault KindTable := do
  let text ← files.readText path
  let value ← (Json.read text).mapError Settings.readFault
  KindTable.ofJson path value

/-- The kind table that the settings name, or else the standard one. -/
def Settings.kindTable (settings : Settings) (files : Files) : Except Fault KindTable :=
  match settings.kindTablePath with
  | none => .ok KindTable.standard
  | some path => if path = "" then .ok KindTable.standard else KindTable.load files path

namespace World

/-- Parses a source and builds its syntax tree. A source with syntax errors is refused or logged.
-/
def parseSource (world : World) (bytes : ByteArray) (tsx : Bool) (fileName : Option String)
    (strict : Bool) : Walk Json := do
  let grammar := if tsx then .withJsx else .plain
  Walk.emit (.parsed grammar)
  let parsed := world.parser grammar bytes
  if parsed.hasErrors then
    if strict then Walk.fail (.syntaxErrors fileName)
    else Walk.log .warning "Source has syntax errors" [("path", Json.ofText? fileName)]
  Walk.ofBuilt (Tree.build ⟨bytes⟩ fileName parsed.root)

/-- Walks a tree by the settings, with the given kind table or else the one that they name. -/
def walkTree (world : World) (settings : Settings) (kinds : Option KindTable) (tree : Json)
    (context : Option Json) : Walk Unit := do
  let kinds ← Walk.ofExcept (match kinds with
    | some kinds => .ok kinds
    | none => settings.kindTable world.files)
  (settings.walker kinds world.tokens).walk tree context

/-- Extracts the declarations of a source. Those at the top are recorded under the module if one is
given, else under the root context. -/
def extractSource (world : World) (settings : Settings) (bytes : ByteArray)
    (module fileName : Option String) (tsx : Option Bool) : Walk Unit := do
  let tree ← world.parseSource bytes (tsx.getD settings.tsx) fileName settings.strict
  world.walkTree settings none tree (module.map .str)

/-- Extracts the declarations of a file. The ending of its name can choose the grammar. -/
def extractFile (world : World) (settings : Settings) (path : String) (module : Option String) :
    Walk Unit := do
  let path := Path.normalize path
  let bytes ← Walk.ofExcept (world.files.read path)
  Walk.log .debug "Extracting declarations" [("path", .str path), ("module", Json.ofText? module)]
  let tsx := if Path.suffix path = ".tsx" then some true else none
  world.extractSource settings bytes module (some path) tsx

end World

end DeclCatalogue
