import DeclCatalogue.Log
import DeclCatalogue.Tree.Node
import DeclCatalogue.Tree.Shape

/-!
# Readings of a concrete node

A concrete node can be read in four ways, depending on where it stands: as an expression, as the
left side of a binding, as a type, and as a statement. A `Reading` holds all four; noted at every
node of a concrete tree, it gives every reading of a node from the readings of the nodes below it.

Reading a statement can log that its type is not known, so statements are read into `Built`, a
result with a log.
-/

namespace DeclCatalogue.Tree

/-- A result and what was logged on the way to it. -/
structure Built (α : Type) where
  log : List LogEntry
  result : Decoded α

namespace Built

variable {α β : Type}

/-- A result without a log. -/
def ofDecoded (result : Decoded α) : Built α := ⟨[], result⟩

/-- One result and, unless it is a fault, the next; the logs one after the other. -/
protected def bind (first : Built α) (next : α → Built β) : Built β :=
  match first.result with
  | .error fault => ⟨first.log, .error fault⟩
  | .ok a => ⟨first.log ++ (next a).log, (next a).result⟩

instance : Monad Built where
  pure a := ⟨[], .ok a⟩
  bind := Built.bind

instance : MonadLift (Except DecodeFault) Built where
  monadLift := ofDecoded

/-- A log entry. -/
def logged (entry : LogEntry) : Built Unit := ⟨[entry], .ok ()⟩

@[simp] theorem pure_eq (a : α) : (pure a : Built α) = ⟨[], .ok a⟩ := rfl

/-- The results for the items of a list, in order. -/
def forEach (step : α → Built β) : List α → Built (List β)
  | [] => pure []
  | a :: rest => do
    let b ← step a
    let bs ← forEach step rest
    return b :: bs

end Built

/-- The four readings of a node. An expression, a binding or a type may have nothing to show, such
as an identifier without a text. A statement takes the modifiers that stand in front of it and may
be several nodes, or none. -/
structure Reading where
  expression : Decoded (Option Json)
  binding : Decoded (Option Json)
  type : Decoded (Option Json)
  statement : List ModifierKind → Built (List Json)

/-- A concrete node whose descendants and which itself are read. -/
abbrev ReadNode := Cst Reading

/-- The results for the items of a list, in order. -/
def decodeEach {α β : Type} (step : α → Decoded β) : List α → Decoded (List β)
  | [] => .ok []
  | a :: rest => do
    let b ← step a
    let bs ← decodeEach step rest
    return b :: bs

/-- The type that a node stands for, if there is a node. -/
def typeOf? : Option ReadNode → Decoded (Option Json)
  | none => .ok none
  | some c => c.note.type

/-- The expression that a node stands for, if there is a node. -/
def expressionOf? : Option ReadNode → Decoded (Option Json)
  | none => .ok none
  | some c => c.note.expression

/-- The binding that a node stands for, if there is a node. -/
def bindingOf? : Option ReadNode → Decoded (Option Json)
  | none => .ok none
  | some c => c.note.binding

/-- The types that nodes stand for, as a list. -/
def typeList (nodes : List ReadNode) : Decoded Json :=
  (decodeEach (fun (c : ReadNode) => c.note.type) nodes).map listOf

/-- The statements that the named nodes among children stand for. -/
def statementsAmong (children : List ReadNode) : Built (List Json) := do
  let groups ← Built.forEach (fun (c : ReadNode) => c.note.statement []) (Cst.named children)
  return groups.flatten

end DeclCatalogue.Tree
