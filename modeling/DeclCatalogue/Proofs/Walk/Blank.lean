import DeclCatalogue.Proofs.Node.Blank
import DeclCatalogue.Proofs.Walk.Congruence

/-!
# Bookkeeping has no influence on a walk

Collectors look at a stripped copy of a node, but modules are walked as they stand: their kind, name,
flags and body are read off the node itself. `tree_blank` says that neither way anything is read that
the parser keeps for itself, and `walk_bookkeeping` that trees which differ in nothing else come to
the same: the same pushes and reports with their nodes, the same log, and an end of the same kind.
-/

namespace DeclCatalogue.Walker

open Json (lookup)
open Node (blank blankFields)

variable {w : Walker}

/-- Flags come to the same number, blank or not. -/
theorem flagsOf_blank (v : Json) : flagsOf (blank w.kinds v) = flagsOf v := by
  have htruthy : (blank w.kinds v).truthy = v.truthy := Node.truthy_blank v
  cases v with
  | arr vs =>
    rw [blank] at htruthy ⊢
    simp only [flagsOf, htruthy]
  | obj fields =>
    rw [blank] at htruthy ⊢
    simp only [flagsOf, htruthy]
  | _ => rfl

/-- The flags of a module are among what is read. -/
theorem flagsOf_blankFields {fields : Fields}
    (h : w.kinds.kindName (.obj fields) = .ok (some SyntaxKind.moduleDeclaration.name)) :
    flagsOf (lookup "flags" (blankFields w.kinds (w.kinds.isModule fields) fields)) =
      flagsOf (lookup "flags" fields) := by
  have hmodule : w.kinds.isModule fields = true := by
    unfold KindTable.isModule
    rw [h]
    exact decide_eq_true rfl
  rw [hmodule, Node.lookup_blankFields (by decide), flagsOf_blank]

/-- A value whose texts are neither lists nor objects, and its blank form. -/
def IsBlankOf (w : Walker) (u v : Json) : Prop :=
  u.EachObject Node.HasPlainTexts ∧ v = blank w.kinds u

/-- Nothing that a walk goes by is taken away from an object. -/
theorem objectsRelated_blank {fields : Fields} (h : (Json.obj fields).EachObject Node.HasPlainTexts) :
    ObjectsRelated w some w.IsBlankOf fields (blankFields w.kinds (w.kinds.isModule fields) fields)
    where
  kind := by rw [← blank, Node.kindName_blank]
  collect := by
    -- a collector sees the stripped node only
    intro collector context
    rw [← blank, collect_congr (Node.strip_blank w.kinds (.obj fields)).symm]
    exact Walk.alike_refl _
  name := by
    rw [Node.lookup_blankFields (Node.isUnread_name _), Node.identifierText_blank (h.lookup "name")]
  module := by
    intro hmodule
    rw [Node.lookup_blankFields_of_isKey (Node.isUnread_kind _)
      (Node.isKey_of_kindName_ok hmodule), flagsOf_blankFields hmodule]
    exact ⟨rfl, rfl⟩
  present := by rw [Node.lookup_blankFields (Node.isUnread_body _), Node.truthy_blank]
  bodyKind := by rw [Node.lookup_blankFields (Node.isUnread_body _), Node.kindName_blank]
  body := ⟨h.lookup "body", Node.lookup_blankFields (Node.isUnread_body _)⟩
  statements := ⟨h.lookup "statements", Node.lookup_blankFields (Node.isUnread_statements _)⟩

theorem related_blank {u v : Json} (h : w.IsBlankOf u v) : Related w some w.IsBlankOf u v := by
  obtain ⟨hu, rfl⟩ := h
  cases u with
  | obj fields => exact .object (objectsRelated_blank hu)
  | arr us =>
    refine .list ?_
    have hitems := Json.eachObject_arr.mp hu
    clear hu
    induction us with
    | nil => exact .nil
    | cons u rest ih =>
      exact .cons ⟨hitems u (List.mem_cons_self ..), rfl⟩
        (ih fun u hu => hitems u (List.mem_cons_of_mem _ hu))
  | _ => exact .primitive rfl

/-- **A tree is walked like its blank form,** if its texts are neither lists nor objects. -/
theorem tree_blank (w : Walker) {v : Json} (h : v.EachObject Node.HasPlainTexts) (context : Json) :
    (w.tree context v).Alike some Eq (w.tree context (blank w.kinds v)) :=
  walkAs_related related_blank ⟨h, rfl⟩ context .tree

/-- **The bookkeeping of a parser has no influence on a walk.** Let two trees differ in nothing but
what stands under `pos`, `end` and `parent` at any depth, and under `flags` in objects that are not
modules, and let their texts be neither lists nor objects. Walked under the same context they give
the same events, records with their nodes and log entries included, draw the same tokens, and both
end well or with faults of one outline, and so of the same wording. -/
theorem walk_bookkeeping (w : Walker) {tree other : Json}
    (hsame : Node.blank w.kinds tree = Node.blank w.kinds other)
    (htree : tree.EachObject Node.HasPlainTexts) (hother : other.EachObject Node.HasPlainTexts)
    (context : Option Json) (drawn : Nat) :
    let outcome := w.walk tree context drawn
    let outcome' := w.walk other context drawn
    outcome.events = outcome'.events ∧ outcome.drawn = outcome'.drawn ∧
      outcome.result.mapError Fault.outline = outcome'.result.mapError Fault.outline ∧
      outcome.result.mapError Fault.message? = outcome'.result.mapError Fault.message? := by
  have hblank := tree_blank w hother (context.getD (.str w.rootContext))
  rw [← hsame] at hblank
  obtain ⟨hevents, hdrawn, hresult⟩ := ((tree_blank w htree _).trans hblank.symm) drawn
  rw [List.filterMap_some, List.filterMap_some] at hevents
  refine ⟨hevents, hdrawn, hresult.mapError_eq, ?_⟩
  -- the wording is the outline's
  have hmessage : ∀ result : Except Fault Unit,
      result.mapError Fault.message? = (result.mapError Fault.outline).mapError Fault.message? := by
    intro result
    cases result with
    | ok _ => rfl
    | error fault => exact congrArg Except.error fault.message?_outline.symm
  rw [hmessage, hmessage (w.walk other context drawn).result]
  exact congrArg _ hresult.mapError_eq

/-- A function in a namespace, with the offsets, flags and parents of two parsers, and behind it a
class without a name, at which both walks end. -/
theorem walk_bookkeeping_namespace :
    let w : Walker := ⟨"root", "namespace$", "import$", 40, KindTable.standard, .counted⟩
    let tree (offset flags parent : Json) : Json := .obj [("pos", offset), ("statements", .arr
      [.obj [("kind", .str "ModuleDeclaration"), ("flags", .int 8), ("parent", parent),
        ("name", .obj [("text", .str "A"), ("end", offset)]),
        ("body", .obj [("statements", .arr
          [.obj [("kind", .str "FunctionDeclaration"), ("flags", flags),
            ("name", .obj [("text", .str "f"), ("flags", flags)])],
           .obj [("kind", .str "ClassDeclaration"), ("end", offset)]])])]])]
    let first := w.walk (tree (.int 0) (.int 1) .null) none 0
    let second := w.walk (tree (.arr [.int 7]) (.str "x") (.obj [("kind", .int 3)])) none 0
    (Event.pushes first.events).length = 2 ∧ (first.events = second.events ∧
      first.drawn = second.drawn ∧
      first.result.mapError Fault.outline = second.result.mapError Fault.outline ∧
      first.result.mapError Fault.message? = second.result.mapError Fault.message?) := by
  refine ⟨by decide +kernel, walk_bookkeeping _ (by decide +kernel) ?_ ?_ none 0⟩ <;>
    (unfold Json.EachObject Node.HasPlainTexts; decide +kernel)

end DeclCatalogue.Walker
