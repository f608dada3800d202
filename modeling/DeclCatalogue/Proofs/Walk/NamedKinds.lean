import DeclCatalogue.Proofs.Node.NamedKinds
import DeclCatalogue.Proofs.Walk.Agreement

/-!
# Kinds by number and by name

A walk asks for kinds in three places: of a statement, of the body of a module, and wherever a
collector strips a node. It asks for their names each time, so that a tree with numbers for kinds and
one with names are walked alike: `walk_nameKindsAt`, for any set of places in the tree at which the
number is replaced by the name.

The only trace that a replacement leaves is in the fault of a module without a name, which keeps the
module as it stands.
-/

namespace DeclCatalogue

open Json (lookup)

namespace Walker

open Node (nameKindsAt nameItemsAt namedAt)

variable {kinds : KindTable} {chosen : List Nat → Bool}

/-- Flags come to the same number: they are one, or they are none. -/
theorem flagsOf_nameKindsAt (v : Json) : flagsOf (nameKindsAt kinds chosen v) = flagsOf v := by
  have htruthy : (nameKindsAt kinds chosen v).truthy = v.truthy := Node.truthy_nameKindsAt v
  cases v with
  | arr vs =>
    rw [nameKindsAt] at htruthy ⊢
    simp only [flagsOf, htruthy]
  | obj fields =>
    rw [nameKindsAt] at htruthy ⊢
    simp only [flagsOf, htruthy]
  | _ => rfl

/-- A value with plain texts, and the value with kinds named at some places. -/
def IsNamed (kinds : KindTable) (u v : Json) : Prop :=
  v.EachObject Node.HasPlainTexts ∧ ∃ chosen, u = nameKindsAt kinds chosen v

theorem isNamed_nameItemsAt {vs : List Json} (h : ∀ v ∈ vs, v.EachObject Node.HasPlainTexts)
    (position : Nat) :
    List.Forall₂ (IsNamed kinds) (nameItemsAt kinds chosen position vs) vs := by
  induction vs generalizing position with
  | nil => exact .nil
  | cons v rest ih =>
    exact .cons ⟨h v (List.mem_cons_self ..), _, rfl⟩
      (ih (fun u hu => h u (List.mem_cons_of_mem _ hu)) (position + 1))

/-- Naming kinds changes nothing that a walk reads of a value. -/
theorem IsNamed.agree {u v : Json} (h : IsNamed kinds u v) :
    Agree kinds kinds (IsNamed kinds) u v := by
  obtain ⟨hplain, chosen, rfl⟩ := h
  cases v with
  | arr vs =>
    rw [nameKindsAt]
    exact .list (isNamed_nameItemsAt (Json.eachObject_arr.mp hplain) 0)
  | obj fields =>
    have hlookup : ∀ key, key ≠ "kind" → ∃ inner, lookup key (namedAt kinds chosen fields) =
        nameKindsAt kinds inner (lookup key fields) := fun _ => Node.lookup_namedAt
    obtain ⟨_, hname⟩ := hlookup "name" (by decide)
    obtain ⟨_, hflags⟩ := hlookup "flags" (by decide)
    obtain ⟨inBody, hbody⟩ := hlookup "body" (by decide)
    obtain ⟨inList, hlist⟩ := hlookup "statements" (by decide)
    have hkind : kinds.kindName (nameKindsAt kinds chosen (.obj fields)) =
        kinds.kindName (.obj fields) := Node.kindName_nameKindsAt _
    have hstrip : Node.strip kinds (nameKindsAt kinds chosen (.obj fields)) =
        Node.strip kinds (.obj fields) := Node.strip_nameKindsAt _ chosen
    rw [Node.nameKindsAt_obj] at hkind hstrip ⊢
    exact .object
      { kind := hkind
        stripped := hstrip
        name := by rw [hname, Node.identifierText_nameKindsAt (hplain.lookup "name")]
        flags := by rw [hflags, flagsOf_nameKindsAt]
        present := by rw [hbody, Node.truthy_nameKindsAt]
        bodyKind := by rw [hbody, Node.kindName_nameKindsAt]
        body := ⟨hplain.lookup "body", inBody, hbody⟩
        statements := ⟨hplain.lookup "statements", inList, hlist⟩ }
  | _ => exact .primitive rfl

/-- A value as what it is taken for, and the statements that are listed in it. -/
private theorem walk_namedAt (w : Walker) (v : Json) (h : v.EachObject Node.HasPlainTexts) :
    (∀ chosen role context, (w.walkAs context role (nameKindsAt w.kinds chosen v)).withoutNode =
      (w.walkAs context role v).withoutNode) ∧
    ∀ vs, v = .arr vs → ∀ chosen context,
      (w.statements context (nameItemsAt w.kinds chosen 0 vs)).withoutNode =
        (w.statements context vs).withoutNode := by
  have hwalk := fun chosen => walk_agree (w := w) IsNamed.agree _ v ⟨h, chosen, rfl⟩
  refine ⟨fun chosen => (hwalk chosen).1, ?_⟩
  rintro vs rfl chosen context
  exact (hwalk chosen).2 _ vs rfl rfl context

end Walker

end DeclCatalogue
