import DeclCatalogue.Proofs.Extraction.Statements
import DeclCatalogue.Proofs.Tree.CommentsTree

/-!
# Comments and what is extracted

Taking the comments out of what the parser makes of a source does not change what is extracted from
it, as long as no comment stands first in a node that counts for its first named child only:
`extractSource_withoutComments`. Such nodes are listed in `Cst.firstChildTypes`; pairs of
parentheses and type annotations are among them. There a comment is taken for the child itself, and
the condition cannot be left out.
-/

namespace DeclCatalogue.World

open Walk (Alike)

/-- A world whose parser makes trees without comments. -/
def withoutComments (world : World) : World :=
  { parser := fun grammar bytes =>
      ⟨(world.parser grammar bytes).root.dropComments, (world.parser grammar bytes).hasErrors⟩
    files := world.files
    tokens := world.tokens }

/-- The statements at the top of a source are similar without its comments. -/
theorem topStatements_agree (world : World) (settings : Settings) (bytes : ByteArray)
    (tsx : Option Bool)
    (hled : (world.parsed settings bytes tsx).root.EachNode fun c => c.ledByComment = false) :
    Tree.Agree Tree.AllSimilar (world.topStatements settings bytes tsx)
      (world.withoutComments.topStatements settings bytes tsx) := by
  have hroot := Tree.readAlike_readTree ⟨bytes⟩ _ hled
  have hplain : world.withoutComments.topStatements settings bytes tsx =
      (Tree.statementsAmong
        (Tree.readPlain ⟨bytes⟩ (world.parsed settings bytes tsx).root).children).result := rfl
  rw [hplain, Tree.children_readPlain]
  unfold topStatements
  rw [Tree.children_readTree]
  exact Tree.statementsAmong_agree (Tree.allReadAlike_children hroot)

/-- The statements of a source are walked alike without its comments. -/
theorem statementWalk_withoutComments (world : World) (settings : Settings) (bytes : ByteArray)
    (module fileName : Option String) (tsx : Option Bool)
    (hled : (world.parsed settings bytes tsx).root.EachNode fun c => c.ledByComment = false) :
    (world.statementWalk settings bytes module fileName tsx).Alike Event.bare Eq
      (world.withoutComments.statementWalk settings bytes module fileName tsx) := by
  have hagree := topStatements_agree world settings bytes tsx hled
  have hfull := topStatements_ok world settings bytes tsx
  have hplain := topStatements_ok world.withoutComments settings bytes tsx
  unfold statementWalk
  by_cases hrefuses : world.Refuses settings bytes tsx
  · have hother : world.withoutComments.Refuses settings bytes tsx := hrefuses
    rw [if_pos hrefuses, if_pos hother]
    exact Walk.alike_refl _
  · have hother : ¬ world.withoutComments.Refuses settings bytes tsx := hrefuses
    rw [if_neg hrefuses, if_neg hother]
    revert hagree hfull hplain
    generalize world.topStatements settings bytes tsx = full
    generalize world.withoutComments.topStatements settings bytes tsx = plain
    intro hagree hfull hplain
    cases hagree with
    | error => exact Walk.alike_refl _
    | @ok us vs huv =>
      refine (Walk.alike_refl _).bind fun kinds _ heq => ?_
      subst heq
      exact Walker.statements_similar huv (fun u hu => (hfull us rfl u hu).2)
        (fun v hv => (hplain vs rfl v hv).2) _

/-- **Comments do not change what is extracted,** if none stands first where the first child counts.
With the comments and without them, the same records are pushed and the same declarations reported
as exported, in the same order, nodes apart; as many tokens are drawn; and the extraction ends in
the same way, up to the node that a fault keeps, of which the wording of the fault shows the kind
only. -/
theorem extractSource_withoutComments (world : World) (settings : Settings) (bytes : ByteArray)
    (module fileName : Option String) (tsx : Option Bool) (drawn : Nat)
    (hled : (world.parsed settings bytes tsx).root.EachNode fun c => c.ledByComment = false) :
    let outcome := world.extractSource settings bytes module fileName tsx drawn
    let plain := world.withoutComments.extractSource settings bytes module fileName tsx drawn
    outcome.events.filterMap Event.bare = plain.events.filterMap Event.bare ∧
      outcome.drawn = plain.drawn ∧
      outcome.result.mapError Fault.outline = plain.result.mapError Fault.outline := by
  intro outcome plain
  have halike := ((extractSource_alike world settings bytes module fileName tsx).trans
    (statementWalk_withoutComments world settings bytes module fileName tsx hled)).trans
    (extractSource_alike world.withoutComments settings bytes module fileName tsx).symm
  obtain ⟨hevents, hdrawn, hresult⟩ := halike drawn
  exact ⟨hevents, hdrawn, hresult.mapError_eq⟩

/-- The tree of a source that exports a name in parentheses, with the given children between the
parentheses. -/
def exportOf (inner : List SourceTree) : SourceTree :=
  .node ⟨"program", true, none, 0, 26⟩ ()
    [.node ⟨"export_statement", true, none, 0, 26⟩ ()
      [.node ⟨"export", false, none, 0, 6⟩ () [],
       .node ⟨"default", false, none, 7, 14⟩ () [],
       .node ⟨"parenthesized_expression", true, some "value", 15, 25⟩ () inner]]

/-- A comment behind an exported name. -/
theorem extractSource_withoutComments_behind :
    let world := always (exportOf
      [.node ⟨"identifier", true, none, 16, 19⟩ () [], .node ⟨"comment", true, none, 19, 24⟩ () []])
    let source := "export default (foo/*c*/);".toUTF8
    ((world.parsed Settings.standard source none).root.EachNode fun c => c.ledByComment = false) ∧
      (world.extractSource Settings.standard source none none none 0).events.filterMap Event.bare =
        (world.withoutComments.extractSource Settings.standard source none none none
          0).events.filterMap Event.bare := by
  intro world source
  have hled : (world.parsed Settings.standard source none).root.EachNode
      fun c => c.ledByComment = false := by
    show ∀ c ∈ Cst.nodes _, Cst.ledByComment c = false
    decide
  exact ⟨hled,
    (extractSource_withoutComments world Settings.standard source none none none 0 hled).1⟩

/-- A comment in front of an exported name: the name is not found, and found without the comment. -/
theorem extractSource_withoutComments_front :
    let world := always (exportOf
      [.node ⟨"comment", true, none, 16, 21⟩ () [], .node ⟨"identifier", true, none, 21, 24⟩ () []])
    let source := "export default (/*c*/foo);".toUTF8
    (world.extractSource Settings.standard source none none none 0).result.isOk = false ∧
      (world.withoutComments.extractSource Settings.standard source none none none 0).result.isOk =
        true := by
  decide +kernel

/-- The tree of a variable whose name, type and value are nodes of the given type, each with a
comment in front of a name. -/
def ledNodes (type : String) : SourceTree :=
  let led (field : String) : SourceTree :=
    .node ⟨type, true, some field, 0, 1⟩ ()
      [.node ⟨"comment", true, none, 0, 0⟩ () [], .node ⟨"identifier", true, none, 0, 1⟩ () []]
  .node ⟨"program", true, none, 0, 1⟩ ()
    [.node ⟨"lexical_declaration", true, none, 0, 1⟩ ()
      [.node ⟨"variable_declarator", true, none, 0, 1⟩ () [led "name", led "type", led "value"]]]

/-- No type can be left out of `Cst.firstChildTypes`: behind the comment in a node of any of them
there can be a name that cannot be decoded, and it is decoded only without the comment. -/
theorem firstChildTypes_needed : ∀ type ∈ Cst.firstChildTypes,
    let world := always (ledNodes type)
    let source : ByteArray := ⟨#[255]⟩
    (world.extractSource Settings.standard source none none none 0).result.isOk = true ∧
      (world.withoutComments.extractSource Settings.standard source none none none 0).result.isOk =
        false := by
  decide +kernel

end DeclCatalogue.World
