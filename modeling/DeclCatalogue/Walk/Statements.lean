import DeclCatalogue.Walk.Collect

/-!
# Walking the statements of a tree

A walk goes through the statements of a tree in order. A statement that is recorded goes to the
step of its kind, the body of a module or namespace is walked under a context of its own, and every
other statement is passed over with a log entry.

`Walker.tree` walks a tree or a module body, `Walker.statement` one statement. The context of a
body is the name of its module, with a prefix for a namespace; contexts further out have no part in
it.
-/

namespace DeclCatalogue

/-- What is done with a statement. -/
inductive StatementKind where
  | module
  | recorded (collector : Collector)
  deriving DecidableEq, Repr

namespace StatementKind

/-- The kinds of node that are walked into or recorded. -/
def table : List (SyntaxKind × StatementKind) :=
  [(.moduleDeclaration, .module),
   (.functionDeclaration, .recorded (.declaration .functions)),
   (.interfaceDeclaration, .recorded (.declaration .interfaces)),
   (.typeAliasDeclaration, .recorded (.declaration .types)),
   (.classDeclaration, .recorded (.declaration .classes)),
   (.variableStatement, .recorded .variableStatement),
   (.exportAssignment, .recorded .exportAssignment),
   (.importDeclaration, .recorded .importDeclaration)]

/-- What is done with statements whose kind has a name. -/
def ofName? (name : String) : Option StatementKind :=
  (table.find? fun e => e.1.name = name).map (·.2)

end StatementKind

/-- The bits that two integers in two's complement have in common. -/
def commonBits : Int → Int → Int
  | .ofNat m, .ofNat n => .ofNat (m &&& n)
  | .ofNat m, .negSucc n => .ofNat (m ^^^ (m &&& n))
  | .negSucc m, .ofNat n => .ofNat (n ^^^ (m &&& n))
  | .negSucc m, .negSucc n => .negSucc (m ||| n)

/-- The number that a node's flags are; flags that count as absent are zero. -/
def flagsOf (flags : Json) : Except Fault Int :=
  match flags with
  | .int n => .ok n
  | .bool b => .ok (if b then 1 else 0)
  | v => if v.truthy then .error .flagsNotInteger else .ok 0

namespace Walker

/-- The context of the body of a module with the given name and flags. -/
def innerContext (w : Walker) (isNamespace : Bool) (name : Json) : Json :=
  if isNamespace then .str (w.namespacePrefix ++ name.display) else name

/-- Enters a module: its name, and the context of its body. A namespace is pushed. -/
def enterModule (w : Walker) (fields : Fields) (context : Json) : Walk (Json × Json) :=
  match Node.identifierText (Json.lookup "name" fields) with
  | none => do
    Walk.log .error "Module declaration without a name" [("context", context)]
    Walk.fail (.unresolvableName (.obj fields))
  | some name => do
    let flags ← Walk.ofExcept (flagsOf (Json.lookup "flags" fields))
    let isNamespace := decide (commonBits flags w.namespaceFlags ≠ 0)
    if isNamespace then Walk.push (.namespaceName name)
    return (name, w.innerContext isNamespace name)

/-- The fault of a value that has no statements to walk. -/
def noStatements (w : Walker) (tree : Json) : Walk Unit := do
  let kind ← Walk.ofExcept (w.kinds.kindName tree)
  Walk.fail (.noStatementList kind)

/-- Passes over a statement. -/
def skip (kind : Option String) (context : Json) : Walk Unit :=
  Walk.log .debug "Skipping statement" [("kind", Json.ofText? kind), ("context", context)]

mutual
/-- Walks one statement. -/
def statement (w : Walker) (context : Json) : Json → Walk Unit
  | .obj fields => do
    let kind ← Walk.ofExcept (w.kinds.kindName (.obj fields))
    match kind.bind StatementKind.ofName? with
    | none => skip kind context
    | some (.recorded collector) => w.collect collector (.obj fields) context
    | some .module => do
      let (name, inner) ← w.enterModule fields context
      if (Json.lookup "body" fields).truthy then do
        Walk.log .debug "Entering module body" [("module", name), ("context", inner)]
        w.bodyIn inner fields
  | _ => skip none context
  termination_by structural node => node

/-- Walks the module body among the fields of a module. A body that is itself a module is its one
statement. -/
def bodyIn (w : Walker) (context : Json) : Fields → Walk Unit
  | [] => pure ()
  | (key, body) :: rest =>
    if key = "body" then do
      let kind ← Walk.ofExcept (w.kinds.kindName body)
      if kind = some SyntaxKind.moduleDeclaration.name then w.statement context body
      else w.tree context body
    else w.bodyIn context rest
  termination_by structural fields => fields

/-- Walks the statements of a tree or of a module body. -/
def tree (w : Walker) (context : Json) : Json → Walk Unit
  | .obj fields => w.statementsIn context fields fields
  | v => w.noStatements v
  termination_by structural node => node

/-- Walks the statements among the remaining fields of a tree. -/
def statementsIn (w : Walker) (context : Json) (all : Fields) : Fields → Walk Unit
  | [] => w.noStatements (.obj all)
  | (key, v) :: rest =>
    if key = "statements" then w.listed context all v else w.statementsIn context all rest
  termination_by structural fields => fields

/-- Walks what stands as the statements of a tree. -/
def listed (w : Walker) (context : Json) (all : Fields) : Json → Walk Unit
  | .arr vs => w.statements context vs
  | _ => w.noStatements (.obj all)
  termination_by structural v => v

/-- Walks statements in order. -/
def statements (w : Walker) (context : Json) : List Json → Walk Unit
  | [] => pure ()
  | v :: rest => do
    w.statement context v
    w.statements context rest
  termination_by structural vs => vs
end

/-- Walks a tree under a context, or under the root context if none is given. -/
def walk (w : Walker) (node : Json) (context : Option Json) : Walk Unit :=
  w.tree (context.getD (.str w.rootContext)) node

/-! ## The walk in terms of fields -/

theorem statements_eq_forEach (w : Walker) (context : Json) (vs : List Json) :
    w.statements context vs = Walk.forEach (w.statement context) vs := by
  induction vs with
  | nil => rfl
  | cons v rest ih => rw [statements, Walk.forEach, ih]

theorem statements_append (w : Walker) (context : Json) (us vs : List Json) :
    w.statements context (us ++ vs) =
      (do w.statements context us; w.statements context vs) := by
  simp only [statements_eq_forEach, Walk.forEach_append]

theorem statementsIn_eq (w : Walker) (context : Json) (all fields : Fields) :
    w.statementsIn context all fields = w.listed context all (Json.lookup "statements" fields) := by
  induction fields with
  | nil => simp [statementsIn, listed]
  | cons f rest ih =>
    rw [statementsIn, Json.lookup_cons]
    split <;> simp_all

theorem tree_obj (w : Walker) (context : Json) (fields : Fields) :
    w.tree context (.obj fields) = w.listed context fields (Json.lookup "statements" fields) := by
  rw [tree, statementsIn_eq]

/-- A body that is there is walked as a statement if it is a module, else as a tree. -/
theorem bodyIn_eq (w : Walker) (context : Json) (fields : Fields)
    (h : (Json.lookup "body" fields).truthy = true) :
    w.bodyIn context fields = (do
      let kind ← Walk.ofExcept (w.kinds.kindName (Json.lookup "body" fields))
      if kind = some SyntaxKind.moduleDeclaration.name then
        w.statement context (Json.lookup "body" fields)
      else w.tree context (Json.lookup "body" fields)) := by
  induction fields with
  | nil => simp [Json.truthy] at h
  | cons f rest ih =>
    rw [Json.lookup_cons] at h ⊢
    rw [bodyIn]
    split <;> simp_all

end Walker

end DeclCatalogue
