import DeclCatalogue.Proofs.Node.View
import DeclCatalogue.Proofs.Record.Make
import DeclCatalogue.Proofs.Walk.Sequence
import Mathlib.Data.List.Forall2

/-!
# Walks that start at another token

Tokens are counted over everything that one run walks, so what was walked before a tree decides at
which token its walk starts. Nothing else does: `tree_renumbers` says that the walk of a tree from a
later token reports the same events, with the same log entries, ends in the same way and draws as
many tokens. Only imports without a name are told apart, by the token that stands for their name,
and that one is later by as much as the start is.

`Walk.Renumbers` relates the step from the earlier token to the step from the later one. It is a
relation between two steps and not a property of one, because what follows a token is given the
token: the two runs go on with different steps from there (`Renumbers.token`).
-/

namespace DeclCatalogue

/-! ## Records of imports -/

/-- The record of an imported name, if the name and the module are names that a record can have. -/
def ImportRecord.of? (kind : ImportKind) (what source : Json) : Option ImportRecord :=
  match Node.asName? what, Node.asName? source with
  | some what, some source => some ⟨kind, what, source⟩
  | _, _ => none

theorem ImportRecord.of?_eq_some {kind : ImportKind} {what source : Json} {record : ImportRecord} :
    ImportRecord.of? kind what source = some record ↔
      kind = record.kind ∧ what = Node.nameText record.what ∧
        source = Node.nameText record.source := by
  unfold ImportRecord.of?
  constructor
  · intro h
    split at h
    next hwhat hsource =>
      rw [← Option.some.inj h]
      exact ⟨rfl, Node.asName?_eq_some.mp hwhat, Node.asName?_eq_some.mp hsource⟩
    next => cases h
  · rintro ⟨rfl, rfl, rfl⟩
    rw [Node.asName?_nameText, Node.asName?_nameText]

/-- **An import is made of exactly what it is given,** which has to be names. -/
theorem ImportRecord.make_eq_valid {kind : ImportKind} {what source : Json}
    {record : ImportRecord} :
    ImportRecord.make kind what source = .valid record ↔
      ImportRecord.of? kind what source = some record := by
  rw [ImportRecord.of?_eq_some]
  unfold ImportRecord.make
  simp only [Checked.seq_eq_valid, Checked.map_eq_valid, Checked.under_eq_valid,
    Checked.name_eq_valid]
  constructor
  · rintro ⟨_, n, ⟨m, rfl, rfl⟩, rfl, rfl⟩
    exact ⟨rfl, rfl, rfl⟩
  · rintro ⟨rfl, hwhat, hsource⟩
    exact ⟨_, record.source, ⟨record.what, hwhat, rfl⟩, hsource, rfl⟩

namespace Walker

/-- The report on an imported name of which no record can be made. -/
def importReport (kind : ImportKind) (what source : Json) : Report :=
  ⟨ImportRecord.subject,
    match ImportRecord.make kind what source with
    | .valid _ => []
    | .invalid issues => issues⟩

/-- **An imported name is recorded, or refused** if it or its module is none that a record can have.
-/
theorem pushImport_eq (kind : ImportKind) (what source : Json) :
    pushImport kind what source =
      match ImportRecord.of? kind what source with
      | some record => Walk.emit (.pushed (.importRecord record))
      | none => Walk.fail (.invalid (importReport kind what source)) := by
  unfold pushImport importReport
  cases hchecked : ImportRecord.make kind what source with
  | valid record =>
    rw [ImportRecord.make_eq_valid.mp hchecked]
    rfl
  | invalid issues =>
    have hnone : ImportRecord.of? kind what source = none := by
      refine Option.eq_none_iff_forall_ne_some.mpr fun record hrecord => ?_
      rw [ImportRecord.make_eq_valid.mpr hrecord] at hchecked
      cases hchecked
    rw [hnone]
    rfl

/-! ## Imports without a name -/

/-- A placeholder has the characters of its token. -/
theorem placeholder_ne_empty (w : Walker) (token : Nat) : w.placeholder token ≠ "" := by
  intro hempty
  have hlist := congrArg String.toList hempty
  unfold placeholder at hlist
  rw [String.toList_append] at hlist
  have hnone := (List.append_eq_nil_iff.mp hlist).2
  exact (w.tokens token).property.1 (String.toList_eq_nil_iff.mp hnone)

/-- Whether all of a placeholder stands for characters is a matter of the prefix. -/
theorem isWellFormed_placeholder (w : Walker) (token : Nat) :
    Text.isWellFormed (w.placeholder token) = Text.isWellFormed w.placeholderPrefix := by
  have htoken : Text.isWellFormed (w.tokens token).val = true := by
    refine Text.isWellFormed_iff.mpr fun c hc => Text.unpaired?_of_isAscii ?_
    exact List.all_eq_true.mp (w.tokens token).property.2 c hc
  unfold placeholder
  rw [Text.isWellFormed_append, htoken, Bool.and_true]

/-- The name that a placeholder is, if its prefix stands for characters. -/
theorem name_placeholder (w : Walker) (token : Nat) :
    Checked.name (.str (w.placeholder token)) =
      if hformed : Text.isWellFormed w.placeholderPrefix = true then
        .valid ⟨w.placeholder token, w.placeholder_ne_empty token,
          (w.isWellFormed_placeholder token).trans hformed⟩
      else Checked.fail .notUnicode := by
  split
  next => exact Checked.name_eq_valid.mpr rfl
  next hformed =>
    unfold Checked.name
    dsimp only
    rw [dif_neg (by rwa [isWellFormed_placeholder])]

/-- The import of a module without a name, for which a token is made into one. -/
def unnamedImport? (w : Walker) (token : Nat) (source : Json) : Option ImportRecord :=
  ImportRecord.of? .default (.str (w.placeholder token)) source

end Walker

/-! ## Later tokens -/

/-- An import, and the same import with a placeholder of a token that is later by `shift`. -/
inductive ImportRecord.Renumbered (w : Walker) (shift : Nat) : ImportRecord → ImportRecord → Prop
  where
  | same (i : ImportRecord) : ImportRecord.Renumbered w shift i i
  | placeholder (token : Nat) (source : Json) {i j : ImportRecord}
      (hfirst : w.unnamedImport? token source = some i)
      (hlater : w.unnamedImport? (shift + token) source = some j) :
      ImportRecord.Renumbered w shift i j

/-- A push, and the same push with a later placeholder. -/
inductive Push.Renumbered (w : Walker) (shift : Nat) : Push → Push → Prop where
  | same (p : Push) : Push.Renumbered w shift p p
  | importRecord {i j : ImportRecord} (h : i.Renumbered w shift j) :
      Push.Renumbered w shift (.importRecord i) (.importRecord j)

/-- An event, and the same event with a later placeholder. -/
inductive Event.Renumbered (w : Walker) (shift : Nat) : Event → Event → Prop where
  | same (e : Event) : Event.Renumbered w shift e e
  | pushed {p q : Push} (h : p.Renumbered w shift q) :
      Event.Renumbered w shift (.pushed p) (.pushed q)

/-- The end of a step, and the end of the same step from a later token. -/
structure Outcome.Renumbered {α : Type} (w : Walker) (shift : Nat) (o p : Outcome α) : Prop where
  events : List.Forall₂ (Event.Renumbered w shift) o.events p.events
  drawn : p.drawn = shift + o.drawn
  result : p.result = o.result

namespace Walk

variable {α β : Type} {w : Walker} {shift : Nat}

/-- A step, and what becomes of it `shift` tokens later. -/
def Renumbers (w : Walker) (shift : Nat) (u v : Walk α) : Prop :=
  ∀ drawn, (u drawn).Renumbered w shift (v (shift + drawn))

theorem Renumbers.pure (a : α) : Renumbers w shift (pure a : Walk α) (pure a) :=
  fun _ => ⟨.nil, rfl, rfl⟩

theorem Renumbers.fail (fault : Fault) :
    Renumbers w shift (Walk.fail fault : Walk α) (Walk.fail fault) :=
  fun _ => ⟨.nil, rfl, rfl⟩

theorem Renumbers.ofExcept (result : Except Fault α) :
    Renumbers w shift (Walk.ofExcept result) (Walk.ofExcept result) :=
  fun _ => ⟨.nil, rfl, rfl⟩

theorem Renumbers.ofChecked (subject : String) (checked : Checked α) :
    Renumbers w shift (Walk.ofChecked subject checked) (Walk.ofChecked subject checked) :=
  Renumbers.ofExcept _

theorem Renumbers.emit {e f : Event} (h : e.Renumbered w shift f) :
    Renumbers w shift (Walk.emit e) (Walk.emit f) :=
  fun _ => ⟨.cons h .nil, rfl, rfl⟩

theorem Renumbers.log {level : LogLevel} {event : String} {fields : Fields} :
    Renumbers w shift (Walk.log level event fields) (Walk.log level event fields) :=
  Renumbers.emit (.same _)

theorem Renumbers.push (p : Push) : Renumbers w shift (Walk.push p) (Walk.push p) := by
  unfold Walk.push
  split
  · exact Renumbers.emit (.same _)
  · exact Renumbers.fail _

/-- An import has no context that could be refused. -/
theorem Renumbers.pushImport {i j : ImportRecord} (h : i.Renumbered w shift j) :
    Renumbers w shift (Walk.push (.importRecord i)) (Walk.push (.importRecord j)) :=
  Renumbers.emit (.pushed (.importRecord h))

theorem Renumbers.bind {u v : Walk α} {next after : α → Walk β} (h : Renumbers w shift u v)
    (hnext : ∀ a, Renumbers w shift (next a) (after a)) :
    Renumbers w shift (u >>= next) (v >>= after) := by
  intro drawn
  obtain ⟨hevents, hdrawn, hresult⟩ := h drawn
  cases hr : (u drawn).result with
  | error fault =>
    rw [bind_apply_error hr, bind_apply_error (hresult.trans hr)]
    exact ⟨hevents, hdrawn, rfl⟩
  | ok a =>
    rw [bind_apply_ok hr, bind_apply_ok (hresult.trans hr), hdrawn]
    obtain ⟨hevents', hdrawn', hresult'⟩ := hnext a (u drawn).drawn
    exact ⟨List.rel_append hevents hevents', hdrawn', hresult'⟩

theorem Renumbers.when (c : Bool) {u v : Walk Unit} (h : Renumbers w shift u v) :
    Renumbers w shift (if c then u else Pure.pure ()) (if c then v else Pure.pure ()) := by
  cases c with
  | false => exact Renumbers.pure ()
  | true => exact h

/-- What follows a token follows a later one in the later run. -/
theorem Renumbers.token {next after : Nat → Walk β}
    (h : ∀ token, Renumbers w shift (next token) (after (shift + token))) :
    Renumbers w shift (Walk.token >>= next) (Walk.token >>= after) := by
  intro drawn
  have htoken : ∀ drawn, (Walk.token drawn).result = .ok (drawn + 1) := fun _ => rfl
  rw [bind_apply_ok (htoken drawn), bind_apply_ok (htoken (shift + drawn))]
  obtain ⟨hevents, hdrawn, hresult⟩ := h (drawn + 1) (drawn + 1)
  exact ⟨hevents, hdrawn, hresult⟩

theorem Renumbers.forEach {step : α → Walk Unit} {xs : List α}
    (h : ∀ x ∈ xs, Renumbers w shift (step x) (step x)) :
    Renumbers w shift (Walk.forEach step xs) (Walk.forEach step xs) := by
  induction xs with
  | nil => exact Renumbers.pure ()
  | cons x rest ih =>
    exact (h x (List.mem_cons_self ..)).bind fun _ =>
      ih fun y hy => h y (List.mem_cons_of_mem _ hy)

end Walk

/-! ## Collectors -/

namespace Walker

open Walk (Renumbers)

variable {w : Walker} {shift : Nat}

theorem strippedFields_renumbers (node : Json) :
    Renumbers w shift (w.strippedFields node) (w.strippedFields node) := by
  unfold strippedFields
  refine (Renumbers.ofExcept _).bind fun v => ?_
  split
  · exact Renumbers.pure _
  · exact Renumbers.fail _

theorem resolveName_renumbers (fields : Fields) :
    Renumbers w shift (resolveName fields) (resolveName fields) := by
  unfold resolveName
  split
  · exact Renumbers.pure _
  · exact Renumbers.log.bind fun _ => Renumbers.fail _

theorem resolveNameOf_renumbers (v : Json) :
    Renumbers w shift (resolveNameOf v) (resolveNameOf v) := by
  unfold resolveNameOf
  split
  · exact resolveName_renumbers _
  · exact Renumbers.fail _

theorem collectDeclaration_renumbers (heading : Heading) (node context : Json) :
    Renumbers w shift (w.collectDeclaration heading node context)
      (w.collectDeclaration heading node context) := by
  unfold collectDeclaration shapeDeclaration
  refine (strippedFields_renumbers node).bind fun fields =>
    Renumbers.bind ?_ fun record => Renumbers.push _
  refine (resolveName_renumbers fields).bind fun name => (Renumbers.ofExcept _).bind fun _ =>
    (Renumbers.ofChecked _ _).bind fun record => ?_
  split
  · exact (Renumbers.emit (.same _)).bind fun _ => Renumbers.pure _
  · exact Renumbers.pure _

theorem shapeVariable_renumbers (context declaration : Json) :
    Renumbers w shift (w.shapeVariable context declaration)
      (w.shapeVariable context declaration) := by
  unfold shapeVariable
  refine (Renumbers.ofExcept _).bind fun type => (Renumbers.ofExcept _).bind fun typeName => ?_
  dsimp only
  split
  · exact Renumbers.log.bind fun _ => Renumbers.pure _
  · split
    · exact (Renumbers.ofExcept _).bind fun pattern =>
        Renumbers.log.bind fun _ => Renumbers.pure _
    · refine (Renumbers.ofExcept _).bind fun left => ?_
      rw [map_eq_pure_bind]
      exact (Renumbers.ofChecked _ _).bind fun _ => Renumbers.pure _

theorem shapeVariables_renumbers (context : Json) (listed : List Json) :
    Renumbers w shift (w.shapeVariables context listed) (w.shapeVariables context listed) := by
  induction listed with
  | nil => exact Renumbers.pure _
  | cons v rest ih =>
    exact (shapeVariable_renumbers context v).bind fun _ => ih.bind fun _ => Renumbers.pure _

theorem collectVariables_renumbers (node context : Json) :
    Renumbers w shift (w.collectVariables node context) (w.collectVariables node context) :=
  (strippedFields_renumbers node).bind fun _ => (Renumbers.ofExcept _).bind fun listed =>
    (shapeVariables_renumbers context listed).bind fun _ =>
      Renumbers.forEach fun _ _ => Renumbers.push _

theorem collectExport_renumbers (node context : Json) :
    Renumbers w shift (w.collectExport node context) (w.collectExport node context) := by
  unfold collectExport
  refine (strippedFields_renumbers node).bind fun fields => ?_
  split
  · exact Renumbers.log.bind fun _ => Renumbers.fail _
  · exact (Renumbers.ofChecked _ _).bind fun _ => Renumbers.push _

theorem pushImport_renumbers {kind : ImportKind} {what source : Json} :
    Renumbers w shift (pushImport kind what source) (pushImport kind what source) :=
  (Renumbers.ofChecked _ _).bind fun _ => Renumbers.push _

/-- **The one place where a token is seen:** an import without a name. -/
theorem pushPlaceholder_renumbers (token : Nat) (source : Json) :
    Renumbers w shift (pushImport .default (.str (w.placeholder token)) source)
      (pushImport .default (.str (w.placeholder (shift + token))) source) := by
  have hfound : ∀ {token : Nat} {record : ImportRecord},
      ImportRecord.make .default (.str (w.placeholder token)) source = .valid record →
      w.unnamedImport? token source = some record :=
    ImportRecord.make_eq_valid.mp
  unfold pushImport
  -- the placeholder is a name at both tokens, or refused at both of them in the same way
  by_cases hformed : Text.isWellFormed w.placeholderPrefix = true
  · cases hsource : Checked.name source with
    | invalid issues =>
      have hmake : ∀ token, ImportRecord.make .default (.str (w.placeholder token)) source =
          .invalid (issues.map fun i => { i with path := "source" :: i.path }) := by
        intro token
        unfold ImportRecord.make
        rw [name_placeholder, dif_pos hformed, hsource]
        rfl
      rw [hmake, hmake]
      exact (Renumbers.fail _).bind fun _ => Renumbers.push _
    | valid name =>
      have hmake : ∀ token, ∃ record,
          ImportRecord.make .default (.str (w.placeholder token)) source = .valid record := by
        intro token
        unfold ImportRecord.make
        rw [name_placeholder, dif_pos hformed, hsource]
        exact ⟨_, rfl⟩
      obtain ⟨i, hi⟩ := hmake token
      obtain ⟨j, hj⟩ := hmake (shift + token)
      rw [hi, hj]
      exact (Renumbers.pure ()).bind fun _ =>
        Renumbers.pushImport (.placeholder token source (hfound hi) (hfound hj))
  · have hmake : ImportRecord.make .default (.str (w.placeholder token)) source =
        ImportRecord.make .default (.str (w.placeholder (shift + token))) source := by
      unfold ImportRecord.make
      rw [name_placeholder, name_placeholder, dif_neg hformed, dif_neg hformed]
    rw [hmake]
    exact (Renumbers.ofChecked _ _).bind fun _ => Renumbers.push _

theorem collectBindings_renumbers (source bindings : Json) :
    Renumbers w shift (collectBindings source bindings) (collectBindings source bindings) := by
  unfold collectBindings
  refine (Renumbers.ofExcept _).bind fun nameNode => ?_
  split
  · exact pushImport_renumbers
  · exact (Renumbers.ofExcept _).bind fun elements => Renumbers.forEach fun element _ =>
      (resolveNameOf_renumbers element).bind fun _ => pushImport_renumbers

theorem collectImport_renumbers (node : Json) :
    Renumbers w shift (w.collectImport node) (w.collectImport node) := by
  unfold collectImport
  refine (strippedFields_renumbers node).bind fun fields =>
    (resolveName_renumbers fields).bind fun source => ?_
  dsimp only
  split
  · exact Renumbers.token fun token => pushPlaceholder_renumbers token source
  · refine (Renumbers.ofExcept _).bind fun nameNode => ?_
    -- the bindings come behind the name in both cases
    have hbindings := fun (bindings : Json) => Renumbers.when bindings.truthy
      (collectBindings_renumbers source bindings : Renumbers w shift _ _)
    split
    · exact pushImport_renumbers.bind fun _ => hbindings _
    · exact hbindings _

theorem collect_renumbers (collector : Collector) (node context : Json) :
    Renumbers w shift (w.collect collector node context) (w.collect collector node context) := by
  cases collector with
  | declaration heading => exact collectDeclaration_renumbers heading node context
  | variableStatement => exact collectVariables_renumbers node context
  | exportAssignment => exact collectExport_renumbers node context
  | importDeclaration => exact collectImport_renumbers node

/-! ## Walks -/

theorem enterModule_renumbers (fields : Fields) (context : Json) :
    Renumbers w shift (w.enterModule fields context) (w.enterModule fields context) := by
  unfold enterModule
  split
  · exact Renumbers.log.bind fun _ => Renumbers.fail _
  · refine (Renumbers.ofExcept _).bind fun flags => ?_
    dsimp only
    split
    · exact (Renumbers.push _).bind fun _ => Renumbers.pure _
    · exact Renumbers.pure _

theorem sequenceRule_renumbers (w : Walker) (shift : Nat) :
    SequenceRule w fun u => Renumbers w shift u u where
  done := Renumbers.pure ()
  next := fun hu hv => hu.bind fun _ => hv
  kind := fun _ _ hafter => (Renumbers.ofExcept _).bind hafter
  logged := fun _ _ => Renumbers.log
  collect := fun collector fields context => collect_renumbers collector (.obj fields) context
  enter := fun fields context _ hafter => (enterModule_renumbers fields context).bind hafter
  noList := fun _ => Renumbers.fail _

/-- **Where a walk starts to count shows in its placeholders only.** -/
theorem tree_renumbers (w : Walker) (shift : Nat) (context v : Json) :
    Renumbers w shift (w.tree context v) (w.tree context v) :=
  tree_sequence (sequenceRule_renumbers w shift) context v

end Walker

/-! ## Catalogues -/

variable {w : Walker} {shift : Nat}

theorem Event.Renumbered.pushes {es fs : List Event}
    (h : List.Forall₂ (Event.Renumbered w shift) es fs) :
    List.Forall₂ (Push.Renumbered w shift) (Event.pushes es) (Event.pushes fs) := by
  induction h with
  | nil => exact .nil
  | @cons e f _ _ hevent _ ih =>
    cases hevent with
    | pushed hpush => exact .cons hpush ih
    | same =>
      cases e with
      | pushed p => exact .cons (.same p) ih
      | _ => exact ih

namespace Catalogue

/-- A catalogue, and the same catalogue with later placeholders. -/
structure Renumbered (w : Walker) (shift : Nat) (c d : Catalogue) : Prop where
  buckets : d.buckets = c.buckets
  namespaces : d.namespaces = c.namespaces
  imports : List.Forall₂ (ImportRecord.Renumbered w shift) c.imports d.imports

theorem Renumbered.refl (c : Catalogue) : c.Renumbered w shift c :=
  ⟨rfl, rfl, List.forall₂_same.mpr fun i _ => .same i⟩

/-- A push and the same push with a later placeholder. -/
theorem Renumbered.push {c d : Catalogue} {p q : Push} (h : c.Renumbered w shift d)
    (hp : p.Renumbered w shift q) : (c.push p).Renumbered w shift (d.push q) := by
  obtain ⟨hbuckets, hnamespaces, himports⟩ := h
  cases hp with
  | importRecord hi => exact ⟨hbuckets, hnamespaces, List.rel_append himports (.cons hi .nil)⟩
  | same =>
    cases p with
    | importRecord i =>
      exact ⟨hbuckets, hnamespaces, List.rel_append himports (.cons (.same i) .nil)⟩
    | namespaceName name =>
      unfold Catalogue.push
      dsimp only
      rw [hnamespaces]
      split
      · exact ⟨hbuckets, hnamespaces, himports⟩
      · exact ⟨hbuckets, rfl, himports⟩
    | _ => exact ⟨congrArg (updateBucket _ _) hbuckets, hnamespaces, himports⟩

/-- Catalogues of the same pushes with later placeholders. -/
theorem Renumbered.replay {c d : Catalogue} {ps qs : List Push} (h : c.Renumbered w shift d)
    (hps : List.Forall₂ (Push.Renumbered w shift) ps qs) :
    (c.replay ps).Renumbered w shift (d.replay qs) := by
  induction hps generalizing c d with
  | nil => exact h
  | cons hp _ ih => exact ih (h.push hp)

end Catalogue

end DeclCatalogue
