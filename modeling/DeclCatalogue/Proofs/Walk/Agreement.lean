import DeclCatalogue.Proofs.Walk.Congruence

/-!
# Walks by two kind tables

A walk reads kinds through its kind table and nowhere else: in statements, in the bodies of modules,
and where a collector strips a node. Two trees, each with a table of its own, are walked to the same
end if the tables give the same names to the kinds that are read.

`Agree` says what two values have in common for that. Like `Related` it is about one step down, with
a relation for whatever a walk comes to next, and `walk_agree` goes on from there by induction. The
walks may be told apart by one thing: the fault of a module without a name keeps the module as it
stands. `Walk.withoutNode` forgets the node that a fault keeps, and the walks are compared after
that, by equations between steps.
-/

namespace DeclCatalogue

open Json (lookup)

/-- The cause of a fault: the fault without the node that it keeps. -/
def Fault.cause : Fault → Fault
  | .unresolvableName _ => .unresolvableName .null
  | fault => fault

namespace Walk

variable {α β : Type}

/-- The step, with the cause of its fault in place of the fault. -/
def withoutNode (u : Walk α) : Walk α := fun drawn =>
  ⟨(u drawn).events, (u drawn).drawn, (u drawn).result.mapError Fault.cause⟩

/-- Of a row of steps the cause of the fault is that of the step that fails. -/
theorem withoutNode_bind (u : Walk α) (next : α → Walk β) :
    (u >>= next).withoutNode = u.withoutNode >>= fun a => (next a).withoutNode := by
  funext drawn
  show Outcome.mk _ _ _ = _
  cases hr : (u drawn).result with
  | error fault =>
    have herror : (u.withoutNode drawn).result = .error fault.cause :=
      congrArg (Except.mapError Fault.cause) hr
    rw [bind_apply_error hr, bind_apply_error herror]
    rfl
  | ok a =>
    have hok : (u.withoutNode drawn).result = .ok a :=
      congrArg (Except.mapError Fault.cause) hr
    rw [bind_apply_ok hr, bind_apply_ok hok]
    rfl

/-- Steps that are alike but for nodes, followed by steps that are. -/
theorem withoutNode_bind_congr {u v : Walk α} {f g : α → Walk β}
    (h : u.withoutNode = v.withoutNode) (hnext : ∀ a, (f a).withoutNode = (g a).withoutNode) :
    (u >>= f).withoutNode = (v >>= g).withoutNode := by
  rw [withoutNode_bind, withoutNode_bind, h]
  exact bind_congr hnext

end Walk

namespace Walker

variable {w : Walker} {kinds : KindTable} {f g : Fields}

/-- Modules of the same name and flags are entered alike, whatever else is in them. -/
theorem enterModule_withoutNode (context : Json)
    (hname : Node.identifierText (lookup "name" f) = Node.identifierText (lookup "name" g))
    (hflags : flagsOf (lookup "flags" f) = flagsOf (lookup "flags" g)) :
    (w.enterModule f context).withoutNode =
      ((w.withKinds kinds).enterModule g context).withoutNode := by
  unfold enterModule
  rw [hname, hflags]
  split
  · exact Walk.withoutNode_bind_congr rfl fun _ => rfl
  · rfl

/-- Statements that agree in the name of their kind, in what collectors make of them, in the name of
a module and its flags, and in the walks of their bodies. -/
theorem statement_withoutNode (context : Json)
    (hkind : w.kinds.kindName (.obj f) = kinds.kindName (.obj g))
    (hstrip : Node.strip w.kinds (.obj f) = Node.strip kinds (.obj g))
    (hname : Node.identifierText (lookup "name" f) = Node.identifierText (lookup "name" g))
    (hflags : flagsOf (lookup "flags" f) = flagsOf (lookup "flags" g))
    (hbody : ∀ entered, (w.moduleBody f entered).withoutNode =
      ((w.withKinds kinds).moduleBody g entered).withoutNode) :
    (w.statement context (.obj f)).withoutNode =
      ((w.withKinds kinds).statement context (.obj g)).withoutNode := by
  rw [statement_obj, statement_obj, hkind]
  refine Walk.withoutNode_bind_congr rfl fun kind => ?_
  unfold dispatch
  split
  · rfl
  · rw [collect_withKinds hstrip]
  · exact Walk.withoutNode_bind_congr (enterModule_withoutNode context hname hflags) hbody

/-- Bodies that are both there, or both not, of a kind of one name, and that are walked alike
whichever way that name has them walked. -/
theorem moduleBody_withoutNode (entered : Json × Json)
    (htruthy : (lookup "body" f).truthy = (lookup "body" g).truthy)
    (hkind : w.kinds.kindName (lookup "body" f) = kinds.kindName (lookup "body" g))
    (hwalk : ∀ role, (w.walkAs entered.2 role (lookup "body" f)).withoutNode =
      ((w.withKinds kinds).walkAs entered.2 role (lookup "body" g)).withoutNode) :
    (w.moduleBody f entered).withoutNode =
      ((w.withKinds kinds).moduleBody g entered).withoutNode := by
  by_cases hbody : (lookup "body" g).truthy = true
  · rw [moduleBody_eq w (htruthy.trans hbody), moduleBody_eq (w.withKinds kinds) hbody, hkind]
    refine Walk.withoutNode_bind_congr rfl fun _ => ?_
    exact Walk.withoutNode_bind_congr rfl fun kind => hwalk _
  · unfold moduleBody
    rw [if_neg hbody, if_neg (htruthy ▸ hbody)]

/-! ## Trees that agree -/

/-- What two objects have in common that are walked alike by two tables, if their bodies and their
lists of statements, which are related, are. -/
structure ObjectsAgree (first second : KindTable) (R : Json → Json → Prop) (f g : Fields) :
    Prop where
  kind : first.kindName (.obj f) = second.kindName (.obj g)
  stripped : Node.strip first (.obj f) = Node.strip second (.obj g)
  name : Node.identifierText (lookup "name" f) = Node.identifierText (lookup "name" g)
  flags : flagsOf (lookup "flags" f) = flagsOf (lookup "flags" g)
  present : (lookup "body" f).truthy = (lookup "body" g).truthy
  bodyKind : first.kindName (lookup "body" f) = second.kindName (lookup "body" g)
  body : R (lookup "body" f) (lookup "body" g)
  statements : R (lookup "statements" f) (lookup "statements" g)

/-- Values of one form: objects with these things in common, lists with related items, and equal
values of any other form. -/
inductive Agree (first second : KindTable) (R : Json → Json → Prop) : Json → Json → Prop where
  | object {f g : Fields} : ObjectsAgree first second R f g →
      Agree first second R (.obj f) (.obj g)
  | list {us vs : List Json} : List.Forall₂ R us vs → Agree first second R (.arr us) (.arr vs)
  | primitive {v : Json} : v.isKey = true → Agree first second R v v

variable {R : Json → Json → Prop}

/-- Lists of statements that are walked alike, or no lists. -/
theorem listed_withoutNode {context u v : Json} (h : Agree w.kinds kinds R u v)
    (hlists : ∀ us vs, u = .arr us → v = .arr vs →
      (w.statements context us).withoutNode =
        ((w.withKinds kinds).statements context vs).withoutNode)
    (hkind : w.kinds.kindName (.obj f) = kinds.kindName (.obj g)) :
    (w.listed context f u).withoutNode =
      ((w.withKinds kinds).listed context g v).withoutNode := by
  have hnone : (w.noStatements (.obj f)).withoutNode =
      ((w.withKinds kinds).noStatements (.obj g)).withoutNode := by
    unfold noStatements
    rw [hkind]
    rfl
  cases h with
  | object => exact hnone
  | list => exact hlists _ _ rfl rfl
  | primitive hkey =>
    cases u with
    | arr us => cases hkey
    | _ => exact hnone

/-- Values that agree as statements and as trees, and what is listed in them. -/
theorem walk_agree (h : ∀ {u v}, R u v → Agree w.kinds kinds R u v) (u : Json) :
    ∀ v, R u v →
      (∀ role context, (w.walkAs context role u).withoutNode =
        ((w.withKinds kinds).walkAs context role v).withoutNode) ∧
      ∀ us vs, u = .arr us → v = .arr vs → ∀ context,
        (w.statements context us).withoutNode =
          ((w.withKinds kinds).statements context vs).withoutNode := by
  -- on the left value only: the right one has the same form
  induction u using Json.induct_lookup with
  | obj f ih =>
    intro v hv
    cases h hv with
    | object hobjects =>
      have hbody := (ih "body" _ hobjects.body).1
      have hstatements := (ih "statements" _ hobjects.statements).2
      refine ⟨fun role context => ?_, fun _ _ hu => by cases hu⟩
      cases role with
      | statement =>
        exact statement_withoutNode context hobjects.kind hobjects.stripped hobjects.name
          hobjects.flags fun entered => moduleBody_withoutNode entered hobjects.present
            hobjects.bodyKind fun role => hbody role entered.2
      | tree =>
        show (w.tree context _).withoutNode = (Walker.tree _ context _).withoutNode
        rw [tree_obj, tree_obj]
        exact listed_withoutNode (h hobjects.statements)
          (fun us vs hus hvs => hstatements us vs hus hvs context) hobjects.kind
    | primitive hkey => cases hkey
  | arr us ih =>
    intro v hv
    cases h hv with
    | list hitems =>
      refine ⟨fun role context => by cases role <;> rfl, ?_⟩
      intro us' vs' hus hvs context
      obtain rfl := Json.arr.inj hus
      obtain rfl := Json.arr.inj hvs
      clear h hv hus hvs
      induction hitems with
      | nil => rfl
      | cons hfirst _ ihrest =>
        rw [statements, statements]
        refine Walk.withoutNode_bind_congr
          ((ih _ (List.mem_cons_self ..) _ hfirst).1 .statement context) fun _ => ?_
        exact ihrest fun u hu => ih u (List.mem_cons_of_mem _ hu)
    | primitive hkey => cases hkey
  | _ =>
    intro v hv
    cases h hv with
    | primitive =>
      exact ⟨fun role _ => by cases role <;> rfl, fun _ _ hu => by cases hu⟩

/-- **Values that agree are walked to the same end,** each by its own table, if what a walk comes to
from them agrees again. -/
theorem walkAs_agree (h : ∀ {u v}, R u v → Agree w.kinds kinds R u v) {u v : Json} (huv : R u v)
    (context : Json) (role : Role) :
    (w.walkAs context role u).withoutNode =
      ((w.withKinds kinds).walkAs context role v).withoutNode :=
  (walk_agree h u v huv).1 role context

end Walker

end DeclCatalogue
