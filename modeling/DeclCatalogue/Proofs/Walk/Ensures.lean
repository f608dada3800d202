import DeclCatalogue.Proofs.Json.Objects
import DeclCatalogue.Walk.Session

/-!
# What a walk guarantees

`Walk.Ensures w E R F` says of a step that every event it reports satisfies `E`, every value it
ends with satisfies `R` and every fault it ends with satisfies `F`, from any number of tokens drawn
before. The rules go by the way steps are put together, so that a step is proved to guarantee
something without being run.

`Walker.WalkRule` is the rule for whole walks: it lists what the collectors, the entry of a module
and the faults of odd trees have to satisfy, and from it `Walker.walk_ensures` and
`Walker.tree_ensures` conclude for every tree, by induction over the tree.
-/

namespace DeclCatalogue

namespace Walk

variable {α β : Type}

/-- Events satisfy `E`, the value satisfies `R`, a fault satisfies `F`. -/
def Ensures (w : Walk α) (E : Event → Prop) (R : α → Prop) (F : Fault → Prop) : Prop :=
  ∀ drawn, (∀ e ∈ (w drawn).events, E e) ∧ (∀ a, (w drawn).result = .ok a → R a) ∧
    ∀ fault, (w drawn).result = .error fault → F fault

variable {E E' : Event → Prop} {R : α → Prop} {S : β → Prop} {F F' : Fault → Prop}

theorem Ensures.mono {w : Walk α} {R' : α → Prop} (h : w.Ensures E R F) (hE : ∀ e, E e → E' e)
    (hR : ∀ a, R a → R' a) (hF : ∀ f, F f → F' f) : w.Ensures E' R' F' := by
  intro drawn
  obtain ⟨hevents, hvalue, hfault⟩ := h drawn
  exact ⟨fun e he => hE e (hevents e he), fun a ha => hR a (hvalue a ha),
    fun f hf => hF f (hfault f hf)⟩

theorem ensures_pure {a : α} (h : R a) : (pure a : Walk α).Ensures E R F := by
  intro drawn
  refine ⟨by simp, fun b hb => ?_, fun f hf => ?_⟩
  · obtain rfl : a = b := Except.ok.inj hb
    exact h
  · cases hf

theorem Ensures.bind {w : Walk α} {next : α → Walk β} (h : w.Ensures E R F)
    (hnext : ∀ a, R a → (next a).Ensures E S F) : (w >>= next).Ensures E S F := by
  intro drawn
  obtain ⟨hevents, hvalue, hfault⟩ := h drawn
  cases hr : (w drawn).result with
  | error fault =>
    rw [bind_apply_error hr]
    refine ⟨hevents, by simp, fun f hf => ?_⟩
    obtain rfl : fault = f := Except.error.inj hf
    exact hfault fault hr
  | ok a =>
    rw [bind_apply_ok hr]
    obtain ⟨hevents', hvalue', hfault'⟩ := hnext a (hvalue a hr) (w drawn).drawn
    refine ⟨fun e he => ?_, hvalue', hfault'⟩
    rcases List.mem_append.mp he with he | he
    · exact hevents e he
    · exact hevents' e he

theorem ensures_fail {fault : Fault} (h : F fault) : (fail fault : Walk α).Ensures E R F := by
  intro drawn
  refine ⟨by simp [fail], fun b hb => ?_, fun f hf => ?_⟩
  · cases hb
  · obtain rfl : fault = f := Except.error.inj hf
    exact h

theorem ensures_ofExcept {result : Except Fault α} (hR : ∀ a, result = .ok a → R a)
    (hF : ∀ f, result = .error f → F f) : (ofExcept result).Ensures E R F :=
  fun _ => ⟨by simp [ofExcept], hR, hF⟩

theorem ensures_emit {event : Event} (h : E event) : (emit event).Ensures E (fun _ => True) F := by
  intro drawn
  refine ⟨fun e he => ?_, fun _ _ => trivial, fun f hf => ?_⟩
  · obtain rfl : e = event := by simpa [emit] using he
    exact h
  · cases hf

theorem ensures_log {level : LogLevel} {event : String} {fields : Fields}
    (h : ∀ entry, E (.logged entry)) : (log level event fields).Ensures E (fun _ => True) F :=
  ensures_emit (h _)

/-- Only a push whose context can be a key is reported. -/
theorem ensures_push {p : Push} (hE : p.isUsable = true → E (.pushed p)) (hF : F .unusableKey) :
    (push p).Ensures E (fun _ => True) F := by
  unfold push
  split
  next husable => exact ensures_emit (hE husable)
  next => exact ensures_fail hF

theorem ensures_token : token.Ensures E (fun _ => True) F := by
  intro drawn
  exact ⟨by simp [token], fun _ _ => trivial, by simp [token]⟩

theorem ensures_forEach {step : α → Walk Unit} {xs : List α}
    (h : ∀ x ∈ xs, (step x).Ensures E (fun _ => True) F) :
    (forEach step xs).Ensures E (fun _ => True) F := by
  induction xs with
  | nil => exact ensures_pure trivial
  | cons x rest ih =>
    exact (h x (List.mem_cons_self ..)).bind fun _ _ =>
      ih fun y hy => h y (List.mem_cons_of_mem _ hy)

/-- What a check accepts satisfies what all accepted values satisfy. -/
theorem ensures_ofChecked {subject : String} {checked : Checked α}
    (hR : ∀ a, checked = .valid a → R a) (hF : ∀ report, F (.invalid report)) :
    (ofChecked subject checked).Ensures E R F := by
  cases checked with
  | valid a => exact ensures_pure (hR a rfl)
  | invalid issues => exact ensures_fail (hF _)

end Walk

/-! ## Walking a tree -/

/-- `Reaches v u`: going down statement lists and module bodies from a tree or a statement `v`, the
walk comes to the statement `u`. -/
inductive Node.Reaches : Json → Json → Prop where
  | self (v : Json) : Reaches v v
  | body {fields : Fields} {u : Json} :
      Reaches (Json.lookup "body" fields) u → Reaches (.obj fields) u
  | listed {fields : Fields} {vs : List Json} {v u : Json} :
      Json.lookup "statements" fields = .arr vs → v ∈ vs → Reaches v u → Reaches (.obj fields) u

namespace Walker

/-- What is to be shown of the parts of a walk so that `E v` holds of every event of walking `v`,
and `F` of every fault. -/
structure WalkRule (w : Walker) (E : Json → Event → Prop) (F : Fault → Prop) : Prop where
  /-- Log entries say nothing. -/
  logged : ∀ v entry, E v (.logged entry)
  /-- A collector is given the fields of a statement of its kind. -/
  collect : ∀ collector fields context name, w.kinds.kindName (.obj fields) = .ok (some name) →
    StatementKind.ofName? name = some (.recorded collector) →
    (w.collect collector (.obj fields) context).Ensures (E (.obj fields)) (fun _ => True) F
  /-- A module is entered. -/
  enter : ∀ fields context,
    (w.enterModule fields context).Ensures (E (.obj fields)) (fun _ => True) F
  /-- What happens below a module happens in it. -/
  body : ∀ fields e, E (Json.lookup "body" fields) e → E (.obj fields) e
  /-- What happens in a statement of a list happens in the list's tree. -/
  listed : ∀ fields vs v e, Json.lookup "statements" fields = .arr vs → v ∈ vs → E v e →
    E (.obj fields) e
  /-- A kind without a name. -/
  badKind : ∀ v fault, w.kinds.kindName v = .error fault → F fault
  /-- A tree or body without a list of statements. -/
  noStatements : ∀ kind, F (.noStatementList kind)

variable {w : Walker} {E : Json → Event → Prop} {F : Fault → Prop}

theorem noStatements_ensures (rule : WalkRule w E F) (v u : Json) :
    (w.noStatements v).Ensures (E u) (fun _ => True) F := by
  unfold noStatements
  refine Walk.Ensures.bind (R := fun _ => True) ?_ fun kind _ =>
    Walk.ensures_fail (rule.noStatements kind)
  exact Walk.ensures_ofExcept (fun _ _ => trivial) (rule.badKind v)

theorem statements_ensures {context : Json} {vs : List Json} {E' : Event → Prop}
    (h : ∀ v ∈ vs, (w.statement context v).Ensures E' (fun _ => True) F) :
    (w.statements context vs).Ensures E' (fun _ => True) F := by
  rw [statements_eq_forEach]
  exact Walk.ensures_forEach h

/-- One module, given what walking its body guarantees. -/
private theorem module_ensures (rule : WalkRule w E F) {context : Json} {fields : Fields}
    (hstatement : ∀ context, (w.statement context (Json.lookup "body" fields)).Ensures
      (E (Json.lookup "body" fields)) (fun _ => True) F)
    (htree : ∀ context, (w.tree context (Json.lookup "body" fields)).Ensures
      (E (Json.lookup "body" fields)) (fun _ => True) F) :
    (do
      let (name, inner) ← w.enterModule fields context
      if (Json.lookup "body" fields).truthy then do
        Walk.log .debug "Entering module body" [("module", name), ("context", inner)]
        w.bodyIn inner fields : Walk Unit).Ensures (E (.obj fields)) (fun _ => True) F := by
  refine (rule.enter fields context).bind fun (name, inner) _ => ?_
  by_cases hbody : (Json.lookup "body" fields).truthy = true
  · dsimp only
    rw [if_pos hbody]
    refine (Walk.ensures_log (rule.logged _)).bind fun _ _ => ?_
    rw [bodyIn_eq w inner fields hbody]
    refine Walk.Ensures.bind (R := fun _ => True)
      (Walk.ensures_ofExcept (fun _ _ => trivial) (rule.badKind _)) fun kind _ => ?_
    split
    · exact (hstatement inner).mono (rule.body fields) (fun _ h => h) (fun _ h => h)
    · exact (htree inner).mono (rule.body fields) (fun _ h => h) (fun _ h => h)
  · dsimp only
    rw [if_neg hbody]
    exact Walk.ensures_pure trivial

/-- Walking a value as a statement, walking it as a tree, and walking what is listed in it. -/
private theorem walk_ensures (rule : WalkRule w E F) (v : Json) :
    (∀ context, (w.statement context v).Ensures (E v) (fun _ => True) F) ∧
    (∀ context, (w.tree context v).Ensures (E v) (fun _ => True) F) ∧
    ∀ vs, v = .arr vs → ∀ u ∈ vs, ∀ context,
      (w.statement context u).Ensures (E u) (fun _ => True) F := by
  -- a list is never walked itself, but the induction reaches statements only through their list
  induction v using Json.induct_lookup with
  | obj fields ih =>
    refine ⟨fun context => ?_, fun context => ?_, fun vs h => by cases h⟩
    · rw [statement]
      refine Walk.Ensures.bind (R := fun kind => w.kinds.kindName (.obj fields) = .ok kind)
        (Walk.ensures_ofExcept (fun _ h => h) (rule.badKind _)) fun kind hkind => ?_
      cases kind with
      | none => exact Walk.ensures_log (rule.logged _)
      | some name =>
        cases hstep : StatementKind.ofName? name with
        | none =>
          simp only [Option.bind_some, hstep]
          exact Walk.ensures_log (rule.logged _)
        | some step =>
          simp only [Option.bind_some, hstep]
          cases step with
          | recorded collector => exact rule.collect collector fields context name hkind hstep
          | module => exact module_ensures rule (ih "body").1 (ih "body").2.1
    · rw [tree_obj]
      cases hlist : Json.lookup "statements" fields with
      | arr vs =>
        rw [listed]
        refine statements_ensures fun u hu => ?_
        exact ((ih "statements").2.2 vs hlist u hu context).mono
          (fun e => rule.listed fields vs u e hlist hu) (fun _ h => h) (fun _ h => h)
      | _ => exact noStatements_ensures rule _ _
  | arr vs ih =>
    refine ⟨fun context => Walk.ensures_log (rule.logged _),
      fun context => noStatements_ensures rule _ _, fun us h u hu context => ?_⟩
    obtain rfl := Json.arr.inj h
    exact (ih u hu).1 context
  | _ =>
    exact ⟨fun context => Walk.ensures_log (rule.logged _),
      fun context => noStatements_ensures rule _ _, fun vs h => by cases h⟩

/-- Walking a tree guarantees what its parts do. -/
theorem tree_ensures (rule : WalkRule w E F) (context v : Json) :
    (w.tree context v).Ensures (E v) (fun _ => True) F :=
  (walk_ensures rule v).2.1 context

end Walker

end DeclCatalogue
