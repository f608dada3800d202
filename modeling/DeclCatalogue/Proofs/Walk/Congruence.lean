import DeclCatalogue.Proofs.Json.Objects
import DeclCatalogue.Proofs.Walk.Alike

/-!
# Statements that are walked alike

What a walk does with a statement depends on few things: on the kind, on what the collectors make of
it, and for a module on the text of its name, its flags and its body. `statement_alike` says so: two
statements that agree in these are walked alike, if their bodies are. Collectors look at a stripped
node only (`collect_congr`).

From statements this goes on to trees. A relation of values that says as much of all objects that it
relates, and goes on to their bodies and statements, has the values that it relates walked alike
(`walkAs_related`).
-/

namespace DeclCatalogue

open Json (lookup)

/-- Only nodes whose kind is called a module are walked into. -/
theorem StatementKind.ofName?_eq_module {name : String}
    (h : StatementKind.ofName? name = some .module) : name = SyntaxKind.moduleDeclaration.name := by
  unfold StatementKind.ofName? at h
  obtain ⟨entry, hfind, hentry⟩ := Option.map_eq_some_iff.mp h
  have hname : entry.1.name = name := by simpa using List.find?_some hfind
  have htable : ∀ e ∈ StatementKind.table, e.2 = .module → e.1 = .moduleDeclaration := by decide
  rw [← hname, htable entry (List.mem_of_find?_eq_some hfind) hentry]

namespace Walker

variable {w : Walker} {see : Event → Option Event}

/-- The part of a module's walk after it is entered. -/
def moduleBody (w : Walker) (fields : Fields) (entered : Json × Json) : Walk Unit :=
  if (lookup "body" fields).truthy then do
    Walk.log .debug "Entering module body" [("module", entered.1), ("context", entered.2)]
    w.bodyIn entered.2 fields
  else pure ()

/-- What is done with a statement of a kind. -/
def dispatch (w : Walker) (context : Json) (fields : Fields) (kind : Option String) : Walk Unit :=
  match kind.bind StatementKind.ofName? with
  | none => skip kind context
  | some (.recorded collector) => w.collect collector (.obj fields) context
  | some .module => do
    let entered ← w.enterModule fields context
    w.moduleBody fields entered

theorem statement_obj (w : Walker) (context : Json) (fields : Fields) :
    w.statement context (.obj fields) = (do
      let kind ← Walk.ofExcept (w.kinds.kindName (.obj fields))
      w.dispatch context fields kind) := by
  rw [statement]
  rfl

/-- What a walk takes a value for: a tree, whose statements are listed in it, or a statement. -/
inductive Role where
  | tree | statement
  deriving DecidableEq, Repr

/-- Walks a value as what it is taken for. -/
def walkAs (w : Walker) (context : Json) : Role → Json → Walk Unit
  | .tree => w.tree context
  | .statement => w.statement context

/-- What the body of a module is taken for, by the name of its kind. -/
def bodyRole (kind : Option String) : Role :=
  if kind = some SyntaxKind.moduleDeclaration.name then .statement else .tree

/-- A body that is there is walked as what its kind has it taken for. -/
theorem moduleBody_eq (w : Walker) {fields : Fields} (h : (lookup "body" fields).truthy = true)
    (entered : Json × Json) :
    w.moduleBody fields entered = (do
      Walk.log .debug "Entering module body" [("module", entered.1), ("context", entered.2)]
      let kind ← Walk.ofExcept (w.kinds.kindName (lookup "body" fields))
      w.walkAs entered.2 (bodyRole kind) (lookup "body" fields)) := by
  unfold moduleBody
  rw [if_pos h, bodyIn_eq w entered.2 fields h]
  refine bind_congr fun _ => bind_congr fun kind => ?_
  unfold bodyRole
  by_cases hkind : kind = some SyntaxKind.moduleDeclaration.name
  · rw [if_pos hkind, if_pos hkind]
    rfl
  · rw [if_neg hkind, if_neg hkind]
    rfl

/-- The walker that goes by another table of kinds. -/
def withKinds (w : Walker) (kinds : KindTable) : Walker :=
  { w with kinds := kinds }

/-- What a collector does depends on the stripped node alone, whatever table it was stripped by. -/
theorem collect_withKinds {kinds : KindTable} {u v : Json}
    (h : Node.strip w.kinds u = Node.strip kinds v) (collector : Collector) (context : Json) :
    w.collect collector u context = (w.withKinds kinds).collect collector v context := by
  have hfields : w.strippedFields u = (w.withKinds kinds).strippedFields v := by
    unfold strippedFields
    rw [h]
    rfl
  have hvariables : ∀ vs, w.shapeVariables context vs =
      (w.withKinds kinds).shapeVariables context vs := by
    intro vs
    induction vs with
    | nil => rfl
    | cons v rest ih =>
      rw [shapeVariables, shapeVariables, ih]
      rfl
  cases collector with
  | declaration heading => simp only [collect, collectDeclaration, hfields]
  | variableStatement => simp only [collect, collectVariables, hfields, hvariables]
  | exportAssignment => simp only [collect, collectExport, hfields]
  | importDeclaration =>
    simp only [collect, collectImport, hfields]
    rfl

theorem collect_congr {u v : Json} (h : Node.strip w.kinds u = Node.strip w.kinds v)
    (collector : Collector) (context : Json) :
    w.collect collector u context = w.collect collector v context :=
  collect_withKinds h collector context

/-- Modules of the same name and flags are entered alike. -/
theorem enterModule_alike {f g : Fields} (context : Json)
    (hkind : lookup "kind" f = lookup "kind" g)
    (hname : Node.identifierText (lookup "name" f) = Node.identifierText (lookup "name" g))
    (hflags : flagsOf (lookup "flags" f) = flagsOf (lookup "flags" g)) :
    (w.enterModule f context).Alike see Eq (w.enterModule g context) := by
  unfold enterModule
  rw [hname, hflags]
  split
  next =>
    refine (Walk.alike_refl _).bind fun _ _ _ => Walk.alike_fail ?_
    show Fault.unresolvableName _ = Fault.unresolvableName _
    have hfield : (Json.obj f).field "kind" = (Json.obj g).field "kind" := hkind
    rw [hfield]
  next => exact Walk.alike_refl _

/-- **Statements that agree are walked alike:** in the name of their kind, in what collectors make
of them, in the name of a module, its kind and its flags, and in the walks of their bodies. -/
theorem statement_alike {f g : Fields} (context : Json)
    (hkind : w.kinds.kindName (.obj f) = w.kinds.kindName (.obj g))
    (hcollect : ∀ collector, (w.collect collector (.obj f) context).Alike see Eq
      (w.collect collector (.obj g) context))
    (hname : Node.identifierText (lookup "name" f) = Node.identifierText (lookup "name" g))
    (hmodule : w.kinds.kindName (.obj f) = .ok (some SyntaxKind.moduleDeclaration.name) →
      lookup "kind" f = lookup "kind" g ∧
        flagsOf (lookup "flags" f) = flagsOf (lookup "flags" g))
    (hbody : ∀ entered, (w.moduleBody f entered).Alike see Eq (w.moduleBody g entered)) :
    (w.statement context (.obj f)).Alike see Eq (w.statement context (.obj g)) := by
  rw [statement_obj, statement_obj, ← hkind]
  cases hfound : w.kinds.kindName (.obj f) with
  | error fault => exact Walk.alike_refl _
  | ok kind =>
    have hpure : Walk.ofExcept (.ok kind) = (pure kind : Walk (Option String)) := rfl
    rw [hpure, pure_bind, pure_bind]
    unfold dispatch
    split
    · exact Walk.alike_refl _
    · exact hcollect _
    next hstep =>
      -- a module it is by its kind, and a module agrees in more
      obtain ⟨name, rfl, hstep⟩ := Option.bind_eq_some_iff.mp hstep
      rw [StatementKind.ofName?_eq_module hstep] at hfound
      obtain ⟨htag, hflags⟩ := hmodule hfound
      refine (enterModule_alike context htag hname hflags).bind fun entered _ heq => ?_
      subst heq
      exact hbody entered

/-- Bodies that are both there, or both not, and that are walked alike whichever way their kind has
them walked. -/
theorem moduleBody_alike {f g : Fields} (entered : Json × Json)
    (htruthy : (lookup "body" f).truthy = (lookup "body" g).truthy)
    (hkind : w.kinds.kindName (lookup "body" f) = w.kinds.kindName (lookup "body" g))
    (hstatement : (w.statement entered.2 (lookup "body" f)).Alike see Eq
      (w.statement entered.2 (lookup "body" g)))
    (htree : (w.tree entered.2 (lookup "body" f)).Alike see Eq
      (w.tree entered.2 (lookup "body" g))) :
    (w.moduleBody f entered).Alike see Eq (w.moduleBody g entered) := by
  unfold moduleBody
  by_cases hbody : (lookup "body" f).truthy = true
  · rw [if_pos hbody, if_pos (htruthy ▸ hbody)]
    rw [bodyIn_eq w entered.2 f hbody, bodyIn_eq w entered.2 g (htruthy ▸ hbody), hkind]
    refine (Walk.alike_refl _).bind fun _ _ _ => (Walk.alike_refl _).bind fun kind _ heq => ?_
    subst heq
    split
    · exact hstatement
    · exact htree
  · rw [if_neg hbody, if_neg (htruthy ▸ hbody)]
    exact Walk.alike_refl _

/-! ## Related trees -/

/-- What two objects have in common that are walked alike, if their bodies and their lists of
statements, which are related, are. -/
structure ObjectsRelated (w : Walker) (see : Event → Option Event) (R : Json → Json → Prop)
    (f g : Fields) : Prop where
  kind : w.kinds.kindName (.obj f) = w.kinds.kindName (.obj g)
  collect : ∀ collector context, (w.collect collector (.obj f) context).Alike see Eq
    (w.collect collector (.obj g) context)
  name : Node.identifierText (lookup "name" f) = Node.identifierText (lookup "name" g)
  module : w.kinds.kindName (.obj f) = .ok (some SyntaxKind.moduleDeclaration.name) →
    lookup "kind" f = lookup "kind" g ∧ flagsOf (lookup "flags" f) = flagsOf (lookup "flags" g)
  present : (lookup "body" f).truthy = (lookup "body" g).truthy
  bodyKind : w.kinds.kindName (lookup "body" f) = w.kinds.kindName (lookup "body" g)
  body : R (lookup "body" f) (lookup "body" g)
  statements : R (lookup "statements" f) (lookup "statements" g)

/-- Values of one form: objects with these things in common, lists with related items, and equal
values of any other form. -/
inductive Related (w : Walker) (see : Event → Option Event) (R : Json → Json → Prop) :
    Json → Json → Prop where
  | object {f g : Fields} : ObjectsRelated w see R f g → Related w see R (.obj f) (.obj g)
  | list {us vs : List Json} : List.Forall₂ R us vs → Related w see R (.arr us) (.arr vs)
  | primitive {v : Json} : v.isKey = true → Related w see R v v

variable {R : Json → Json → Prop}

/-- Lists of statements that are walked alike, or no lists. -/
theorem listed_alike {context : Json} {f g : Fields} {u v : Json} (h : Related w see R u v)
    (hlists : ∀ us vs, u = .arr us → v = .arr vs →
      (w.statements context us).Alike see Eq (w.statements context vs))
    (hkind : w.kinds.kindName (.obj f) = w.kinds.kindName (.obj g)) :
    (w.listed context f u).Alike see Eq (w.listed context g v) := by
  have hnone : (w.noStatements (.obj f)).Alike see Eq (w.noStatements (.obj g)) := by
    unfold noStatements
    rw [hkind]
    exact Walk.alike_refl _
  cases h with
  | object => exact hnone
  | list => exact hlists _ _ rfl rfl
  | primitive hkey =>
    cases u with
    | arr us => cases hkey
    | _ => exact hnone

/-- Related values as statements and as trees, and what is listed in them. -/
private theorem walk_related (h : ∀ {u v}, R u v → Related w see R u v) (u : Json) :
    ∀ v, R u v →
      (∀ role context, (w.walkAs context role u).Alike see Eq (w.walkAs context role v)) ∧
      ∀ us vs, u = .arr us → v = .arr vs → ∀ context,
        (w.statements context us).Alike see Eq (w.statements context vs) := by
  -- on the left value only: the right one has the same form
  induction u using Json.induct_lookup with
  | obj f ih =>
    intro v hv
    cases h hv with
    | object hobjects =>
      have hbody := (ih "body" _ hobjects.body).1
      have hstatements := (ih "statements" _ hobjects.statements).2
      refine ⟨fun role context => ?_, fun _ _ hu => by cases hu⟩
      cases role with
      | statement =>
        exact statement_alike context hobjects.kind
          (fun collector => hobjects.collect collector context) hobjects.name hobjects.module
          fun entered => moduleBody_alike entered hobjects.present hobjects.bodyKind
            (hbody .statement entered.2) (hbody .tree entered.2)
      | tree =>
        show (w.tree context _).Alike see Eq (w.tree context _)
        rw [tree_obj, tree_obj]
        exact listed_alike (h hobjects.statements)
          (fun us vs hus hvs => hstatements us vs hus hvs context) hobjects.kind
    | primitive hkey => cases hkey
  | arr us ih =>
    intro v hv
    cases h hv with
    | list hitems =>
      refine ⟨fun role context => by cases role <;> exact Walk.alike_refl _, ?_⟩
      intro us' vs' hus hvs context
      obtain rfl := Json.arr.inj hus
      obtain rfl := Json.arr.inj hvs
      rw [statements_eq_forEach, statements_eq_forEach]
      refine Walk.alike_forEach ?_
      clear h hv hus hvs
      induction hitems with
      | nil => exact .nil
      | cons hfirst _ ihrest =>
        refine .cons ((ih _ (List.mem_cons_self ..) _ hfirst).1 .statement context) ?_
        exact ihrest fun u hu => ih u (List.mem_cons_of_mem _ hu)
    | primitive hkey => cases hkey
  | _ =>
    intro v hv
    cases h hv with
    | primitive =>
      exact ⟨fun role context => Walk.alike_refl _, fun _ _ hu => by cases hu⟩

/-- **Related values are walked alike,** if the relation goes on to whatever a walk comes to from
them. -/
theorem walkAs_related (h : ∀ {u v}, R u v → Related w see R u v) {u v : Json} (huv : R u v)
    (context : Json) (role : Role) :
    (w.walkAs context role u).Alike see Eq (w.walkAs context role v) :=
  (walk_related h u v huv).1 role context

end Walker

end DeclCatalogue
