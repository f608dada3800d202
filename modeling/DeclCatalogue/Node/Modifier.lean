import DeclCatalogue.Node.Access
import DeclCatalogue.SyntaxKind

/-!
# Modifiers

The keywords that may stand in front of a declaration, and which of them a node carries.
-/

namespace DeclCatalogue

/-- The keywords that modify a declaration. -/
inductive ModifierKind where
  | exported | default | declared | const | abstract | async | isPublic | isPrivate | isProtected
  | static | readonly | override
  deriving DecidableEq, Repr

namespace ModifierKind

/-- All modifiers. -/
def all : List ModifierKind :=
  [.exported, .default, .declared, .const, .abstract, .async, .isPublic, .isPrivate, .isProtected,
   .static, .readonly, .override]

/-- The kind of node that stands for a modifier. -/
def syntaxKind : ModifierKind → SyntaxKind
  | .exported => .exportKeyword
  | .default => .defaultKeyword
  | .declared => .declareKeyword
  | .const => .constKeyword
  | .abstract => .abstractKeyword
  | .async => .asyncKeyword
  | .isPublic => .publicKeyword
  | .isPrivate => .privateKeyword
  | .isProtected => .protectedKeyword
  | .static => .staticKeyword
  | .readonly => .readonlyKeyword
  | .override => .overrideKeyword

/-- The name of the kind of node that stands for a modifier. -/
def name (m : ModifierKind) : String :=
  m.syntaxKind.name

/-- The modifier that a kind name stands for. -/
def ofName? (name : String) : Option ModifierKind :=
  all.find? fun m => m.name = name

/-- The modifier that a stripped node stands for; none for any other node, such as a decorator. -/
def ofNode? (node : Json) : Option ModifierKind :=
  match node.field "kind" with
  | .str name => ofName? name
  | _ => none

theorem mem_all (m : ModifierKind) : m ∈ all := by
  cases m <;> decide

end ModifierKind

/-- The modifiers that a stripped node carries, each once. -/
def Node.modifiers (node : Json) : Except Fault (List ModifierKind) := do
  let listed ← Node.items (← Node.get node "modifiers")
  let found := listed.filterMap ModifierKind.ofNode?
  return ModifierKind.all.filter fun m => found.contains m

end DeclCatalogue
