import DeclCatalogue.Catalogue.Basic
import DeclCatalogue.Proofs.Json.Same
import Mathlib.Data.List.Induction

/-!
# The catalogue as a view of its pushes

A catalogue that starts empty can be read off the list of everything that was pushed to it:
`replay_empty` says that it is `Catalogue.ofPushes` of that list, which mentions no catalogue on the
way there. Its contexts are the contexts that were pushed to, each once and in the order in which
they came first; every list of a bucket is what was pushed under the bucket's context and belongs
in that list, in the order of the pushes; and namespaces and imports are listed without regard to
contexts.

Two things follow for every list of pushes. A bucket is made for a push, so none is empty
(`ofPushes_not_isEmpty`); and pushing more only appends (`ofPushes_isPrefixOf`).

Contexts are told apart by value, as `Json.same` has it. That this is an equivalence on keys is what
makes the bucket that a push finds the only one that it could have found (`updateBucket_keys`).
-/

namespace DeclCatalogue

/-! ## Repetitions -/

namespace Json

/-- The values of a list without those that are equal by value to an earlier one. -/
def distinct (vs : List Json) : List Json :=
  vs.eraseDupsBy fun v earlier => earlier.same v

private theorem loop_cons {α : Type} (r : α → α → Bool) (a : α) (as kept : List α) :
    List.eraseDupsBy.loop r (a :: as) kept =
      if kept.any (r a) then List.eraseDupsBy.loop r as kept
      else List.eraseDupsBy.loop r as (a :: kept) := by
  cases h : kept.any (r a) <;> simp [List.eraseDupsBy.loop, h]

private theorem loop_append_singleton {α : Type} (r : α → α → Bool) (a : α) (as kept : List α) :
    List.eraseDupsBy.loop r (as ++ [a]) kept =
      List.eraseDupsBy.loop r as kept ++
        if (List.eraseDupsBy.loop r as kept).any (r a) then [] else [a] := by
  induction as generalizing kept with
  | nil =>
    rw [List.nil_append, loop_cons]
    simp only [List.eraseDupsBy.loop, List.any_reverse]
    split
    · rw [List.append_nil]
    · rw [List.reverse_cons]
  | cons b rest ih =>
    rw [List.cons_append, loop_cons, loop_cons]
    split
    · exact ih kept
    · exact ih (b :: kept)

/-- One more value is kept unless it is equal to one that is kept already. -/
theorem distinct_append_singleton (vs : List Json) (v : Json) :
    distinct (vs ++ [v]) = distinct vs ++ if (distinct vs).any (·.same v) then [] else [v] :=
  loop_append_singleton _ v vs []

/-- What is kept was there. -/
theorem mem_of_mem_distinct {vs : List Json} {u : Json} (h : u ∈ distinct vs) : u ∈ vs := by
  induction vs using List.reverseRecOn with
  | nil => exact h
  | append_singleton rest v ih =>
    rw [distinct_append_singleton] at h
    rcases List.mem_append.mp h with hold | hnew
    · exact List.mem_append_left _ (ih hold)
    · split at hnew
      · cases hnew
      · exact List.mem_append_right _ hnew

/-- No two of the values that are kept are equal. -/
theorem distinct_pairwise (vs : List Json) :
    (distinct vs).Pairwise fun u v => u.same v = false := by
  induction vs using List.reverseRecOn with
  | nil => exact .nil
  | append_singleton rest v ih =>
    rw [distinct_append_singleton]
    split
    next => rwa [List.append_nil]
    next hnone =>
      refine List.pairwise_append.mpr ⟨ih, List.pairwise_singleton _ _, fun u hu w hw => ?_⟩
      rw [List.mem_singleton.mp hw]
      rw [List.any_eq_true] at hnone
      exact Bool.eq_false_iff.mpr fun hsame => hnone ⟨u, hu, hsame⟩

/-- Of every value there is one that is kept. -/
theorem exists_mem_distinct {vs : List Json} {v : Json} (hmem : v ∈ vs) (hkey : v.isKey = true) :
    ∃ u ∈ distinct vs, u.same v = true := by
  induction vs using List.reverseRecOn with
  | nil => cases hmem
  | append_singleton rest w ih =>
    rw [distinct_append_singleton]
    rcases List.mem_append.mp hmem with hold | hnew
    · obtain ⟨u, hu, hsame⟩ := ih hold
      exact ⟨u, List.mem_append_left _ hu, hsame⟩
    · obtain rfl := List.mem_singleton.mp hnew
      by_cases hany : (distinct rest).any (·.same v) = true
      · obtain ⟨u, hu, hsame⟩ := List.any_eq_true.mp hany
        exact ⟨u, List.mem_append_left _ hu, hsame⟩
      · rw [if_neg hany]
        exact ⟨v, List.mem_append_right _ (List.mem_singleton_self v), same_refl hkey⟩

/-- What is kept stays, whatever comes behind. -/
theorem distinct_prefix (us vs : List Json) : distinct us <+: distinct (us ++ vs) := by
  induction vs using List.reverseRecOn with
  | nil => exact ⟨[], (List.append_nil _).trans (congrArg distinct (List.append_nil us).symm)⟩
  | append_singleton rest v ih =>
    rw [← List.append_assoc, distinct_append_singleton]
    exact ih.trans (List.prefix_append _ _)

end Json

/-! ## What a push carries -/

namespace Push

/-- The declaration that is pushed under a heading. -/
def declaration? (heading : Heading) : Push → Option Declaration
  | .declaration h record _ => if h = heading then some record else none
  | _ => none

/-- The variable that is pushed. -/
def variableRecord? : Push → Option VariableRecord
  | .variableRecord record _ => some record
  | _ => none

/-- The export that is pushed. -/
def exportRecord? : Push → Option ExportRecord
  | .exportRecord record _ => some record
  | _ => none

/-- The name of the namespace that is pushed. -/
def namespaceName? : Push → Option Json
  | .namespaceName name => some name
  | _ => none

/-- The import that is pushed. -/
def importRecord? : Push → Option ImportRecord
  | .importRecord record => some record
  | _ => none

/-- Whether a push goes to the bucket under a key. -/
def goesTo (key : Json) (p : Push) : Bool :=
  p.context?.any key.same

variable {p : Push} {context : Json}

theorem goesTo_eq (h : p.context? = some context) (key : Json) :
    p.goesTo key = key.same context := by
  unfold goesTo
  rw [h]
  rfl

theorem isUsable_eq (h : p.context? = some context) : p.isUsable = context.isKey := by
  unfold isUsable
  rw [h]
  rfl

/-- What goes to a context is no namespace. -/
theorem namespaceName?_of_context (h : p.context? = some context) : p.namespaceName? = none := by
  cases p with
  | namespaceName name => cases h
  | _ => rfl

/-- What goes to a context is no import. -/
theorem importRecord?_of_context (h : p.context? = some context) : p.importRecord? = none := by
  cases p with
  | importRecord record => cases h
  | _ => rfl

end Push

namespace Bucket

/-- The bucket that holds exactly what the pushes carry. -/
def ofPushes (ps : List Push) : Bucket where
  functions := ps.filterMap (Push.declaration? .functions)
  interfaces := ps.filterMap (Push.declaration? .interfaces)
  types := ps.filterMap (Push.declaration? .types)
  classes := ps.filterMap (Push.declaration? .classes)
  variableRecords := ps.filterMap Push.variableRecord?
  exports := ps.filterMap Push.exportRecord?

/-- A bucket with what a push carries to it. -/
def add (p : Push) (b : Bucket) : Bucket :=
  match p with
  | .declaration heading record _ => b.addDeclaration record heading
  | .variableRecord record _ => b.addVariable record
  | .exportRecord record _ => b.addExport record
  | .namespaceName _ | .importRecord _ => b

theorem declarations_ofPushes (ps : List Push) (heading : Heading) :
    (ofPushes ps).declarations heading = ps.filterMap (Push.declaration? heading) := by
  cases heading <;> rfl

theorem ofPushes_append_singleton (ps : List Push) (p : Push) :
    ofPushes (ps ++ [p]) = (ofPushes ps).add p := by
  unfold ofPushes
  simp only [List.filterMap_append]
  -- every list but the one that the push belongs to gets nothing
  cases p with
  | declaration heading record context =>
    cases heading <;> simp [add, addDeclaration, Push.declaration?, Push.variableRecord?,
      Push.exportRecord?]
  | variableRecord record context =>
    simp [add, addVariable, Push.declaration?, Push.variableRecord?, Push.exportRecord?]
  | exportRecord record context =>
    simp [add, addExport, Push.declaration?, Push.variableRecord?, Push.exportRecord?]
  | namespaceName name => simp [add, Push.declaration?, Push.variableRecord?, Push.exportRecord?]
  | importRecord record => simp [add, Push.declaration?, Push.variableRecord?, Push.exportRecord?]

/-- A bucket has more records than another one, behind those of the other one. -/
structure IsPrefixOf (b c : Bucket) : Prop where
  declarations : ∀ heading, b.declarations heading <+: c.declarations heading
  variableRecords : b.variableRecords <+: c.variableRecords
  exports : b.exports <+: c.exports

theorem ofPushes_isPrefixOf (ps qs : List Push) : (ofPushes ps).IsPrefixOf (ofPushes (ps ++ qs)) where
  declarations := fun heading => by
    rw [declarations_ofPushes, declarations_ofPushes, List.filterMap_append]
    exact List.prefix_append _ _
  variableRecords := by
    show _ <+: (ps ++ qs).filterMap _
    rw [List.filterMap_append]
    exact List.prefix_append _ _
  exports := by
    show _ <+: (ps ++ qs).filterMap _
    rw [List.filterMap_append]
    exact List.prefix_append _ _

end Bucket

namespace Catalogue

theorem ext {c d : Catalogue} (hbuckets : c.buckets = d.buckets)
    (hnamespaces : c.namespaces = d.namespaces) (himports : c.imports = d.imports) : c = d := by
  cases c
  cases d
  cases hbuckets
  cases hnamespaces
  cases himports
  rfl

/-- The catalogue that a list of pushes describes. -/
def ofPushes (ps : List Push) : Catalogue where
  buckets := (Json.distinct (ps.filterMap Push.context?)).map fun key =>
    (key, Bucket.ofPushes (ps.filter (Push.goesTo key)))
  namespaces := Json.distinct (ps.filterMap Push.namespaceName?)
  imports := ps.filterMap Push.importRecord?

/-! ## One push more -/

/-- Changing the bucket of a context changes the only bucket whose key is equal to it, or appends a
new one. -/
theorem updateBucket_keys {context : Json} {change : Bucket → Bucket} {keys : List Json}
    (bucketOf : Json → Bucket)
    (h : keys.Pairwise fun k l => k.same context = true → l.same context = false) :
    updateBucket context change (keys.map fun key => (key, bucketOf key)) =
      (keys.map fun key =>
        (key, if key.same context then change (bucketOf key) else bucketOf key)) ++
        if keys.any (·.same context) then [] else [(context, change Bucket.empty)] := by
  induction keys with
  | nil => rfl
  | cons key rest ih =>
    obtain ⟨hkey, hrest⟩ := List.pairwise_cons.mp h
    rw [List.map_cons, updateBucket, List.map_cons, List.any_cons]
    cases hsame : key.same context with
    | false =>
      rw [if_neg (by simp), if_neg (by simp), Bool.false_or, ih hrest]
      rfl
    | true =>
      rw [if_pos rfl, if_pos rfl, Bool.true_or, if_pos rfl, List.append_nil]
      congr 1
      -- the buckets behind belong to other contexts
      refine List.map_congr_left fun other hother => ?_
      rw [hkey other hother hsame, if_neg (by simp)]

/-- A push to a context changes the bucket of the context by what it carries. -/
theorem push_eq_update {p : Push} {context : Json} (h : p.context? = some context)
    (catalogue : Catalogue) : catalogue.push p = catalogue.update context (Bucket.add p) := by
  cases p with
  | namespaceName name => cases h
  | importRecord record => cases h
  | _ =>
    obtain rfl := Option.some.inj h
    rfl

/-- The pushes that go to a context, with one more. -/
theorem filter_goesTo {p : Push} {context : Json} (h : p.context? = some context) (key : Json)
    (ps : List Push) :
    Bucket.ofPushes ((ps ++ [p]).filter (Push.goesTo key)) =
      if key.same context then (Bucket.ofPushes (ps.filter (Push.goesTo key))).add p
      else Bucket.ofPushes (ps.filter (Push.goesTo key)) := by
  have hgoes := Push.goesTo_eq h key
  rw [List.filter_append]
  cases hsame : key.same context with
  | true =>
    rw [List.filter_cons_of_pos (hgoes.trans hsame), List.filter_nil, if_pos rfl,
      Bucket.ofPushes_append_singleton]
  | false =>
    rw [List.filter_cons_of_neg (by rw [hgoes, hsame]; simp), List.filter_nil, List.append_nil,
      if_neg (by simp)]

/-- A push to a context adds to what the pushes before it describe. -/
theorem ofPushes_push_context {ps : List Push} {p : Push} {context : Json}
    (h : p.context? = some context) (hps : ∀ q ∈ ps, q.isUsable = true)
    (hp : context.isKey = true) : ofPushes (ps ++ [p]) = (ofPushes ps).push p := by
  have hkeys : ∀ c ∈ ps.filterMap Push.context?, c.isKey = true := by
    intro c hc
    obtain ⟨q, hq, hcontext⟩ := List.mem_filterMap.mp hc
    exact (Push.isUsable_eq hcontext).symm.trans (hps q hq)
  -- two keys that are equal to the context would be equal to each other
  have hunique : (Json.distinct (ps.filterMap Push.context?)).Pairwise fun k l =>
      k.same context = true → l.same context = false := by
    refine (Json.distinct_pairwise _).imp_of_mem fun {k l} hk hl hdiffer hk' => ?_
    refine Bool.eq_false_iff.mpr fun hl' => ?_
    have hkkey := hkeys k (Json.mem_of_mem_distinct hk)
    have hlkey := hkeys l (Json.mem_of_mem_distinct hl)
    rw [Json.same_trans hkkey hk' (Json.same_symm hlkey hl')] at hdiffer
    cases hdiffer
  have hcontexts : (ps ++ [p]).filterMap Push.context? = ps.filterMap Push.context? ++ [context] := by
    rw [List.filterMap_append, List.filterMap_cons_some h, List.filterMap_nil]
  have hbuckets : (ofPushes (ps ++ [p])).buckets =
      updateBucket context (Bucket.add p) (ofPushes ps).buckets := by
    unfold ofPushes
    dsimp only
    rw [updateBucket_keys _ hunique, hcontexts, Json.distinct_append_singleton, List.map_append]
    simp only [filter_goesTo h]
    congr 1
    split
    next => rfl
    next hnone =>
      -- a new context has nothing pushed to it before
      have hempty : ps.filter (Push.goesTo context) = [] := by
        refine List.filter_eq_nil_iff.mpr fun q hq hgoes => hnone ?_
        obtain ⟨c, hc, hsame⟩ := (Option.any_eq_true _ _).mp hgoes
        have hmem := List.mem_filterMap.mpr ⟨q, hq, hc⟩
        obtain ⟨u, hu, husame⟩ := Json.exists_mem_distinct hmem (hkeys c hmem)
        have hukey := hkeys u (Json.mem_of_mem_distinct hu)
        exact List.any_eq_true.mpr
          ⟨u, hu, Json.same_trans hukey husame (Json.same_symm hp hsame)⟩
      rw [List.map_singleton, hempty, Json.same_refl hp, if_pos rfl]
      rfl
  rw [push_eq_update h]
  unfold update
  rw [← hbuckets]
  simp only [ofPushes, List.filterMap_append,
    List.filterMap_cons_none (Push.namespaceName?_of_context h),
    List.filterMap_cons_none (Push.importRecord?_of_context h), List.filterMap_nil,
    List.append_nil]

/-- Pushes that go to no context leave the buckets as they are. -/
theorem buckets_ofPushes_append {p : Push} (h : p.context? = none) (ps : List Push) :
    (ofPushes (ps ++ [p])).buckets = (ofPushes ps).buckets := by
  have hgoes : ∀ key, ¬ Push.goesTo key p = true := by
    intro key hgoes
    unfold Push.goesTo at hgoes
    rw [h] at hgoes
    cases hgoes
  unfold ofPushes
  simp only [List.filterMap_append, List.filterMap_cons_none h, List.filterMap_nil,
    List.append_nil, List.filter_append, List.filter_cons_of_neg (hgoes _), List.filter_nil]

/-- A push adds to what the pushes before it describe. -/
theorem ofPushes_append_singleton {ps : List Push} {p : Push}
    (h : ∀ q ∈ ps ++ [p], q.isUsable = true) : ofPushes (ps ++ [p]) = (ofPushes ps).push p := by
  have hps : ∀ q ∈ ps, q.isUsable = true := fun q hq => h q (List.mem_append_left _ hq)
  have hp : p.isUsable = true := h p (List.mem_append_right _ (List.mem_singleton_self p))
  cases p with
  | declaration heading record context => exact ofPushes_push_context rfl hps hp
  | variableRecord record context => exact ofPushes_push_context rfl hps hp
  | exportRecord record context => exact ofPushes_push_context rfl hps hp
  | namespaceName name =>
    have hbuckets := buckets_ofPushes_append (p := Push.namespaceName name) rfl ps
    have hnames : (ps ++ [Push.namespaceName name]).filterMap Push.namespaceName? =
        ps.filterMap Push.namespaceName? ++ [name] := List.filterMap_append
    have himports : (ps ++ [Push.namespaceName name]).filterMap Push.importRecord? =
        ps.filterMap Push.importRecord? := List.filterMap_append.trans (List.append_nil _)
    have hlisted : (ofPushes (ps ++ [.namespaceName name])).namespaces =
        (ofPushes ps).namespaces ++
          if (ofPushes ps).namespaces.any (·.same name) then [] else [name] :=
      (congrArg Json.distinct hnames).trans (Json.distinct_append_singleton _ name)
    unfold push
    dsimp only
    split
    next hany =>
      rw [if_pos hany, List.append_nil] at hlisted
      exact ext hbuckets hlisted himports
    next hnone =>
      rw [if_neg hnone] at hlisted
      exact ext hbuckets hlisted himports
  | importRecord record =>
    have hbuckets := buckets_ofPushes_append (p := Push.importRecord record) rfl ps
    have hnames : (ps ++ [Push.importRecord record]).filterMap Push.namespaceName? =
        ps.filterMap Push.namespaceName? := List.filterMap_append.trans (List.append_nil _)
    have himports : (ps ++ [Push.importRecord record]).filterMap Push.importRecord? =
        ps.filterMap Push.importRecord? ++ [record] := List.filterMap_append
    exact ext hbuckets (congrArg Json.distinct hnames) himports

/-- **A catalogue is what was pushed to it.** -/
theorem replay_empty {ps : List Push} (h : ∀ p ∈ ps, p.isUsable = true) :
    Catalogue.empty.replay ps = ofPushes ps := by
  induction ps using List.reverseRecOn with
  | nil => rfl
  | append_singleton rest p ih =>
    rw [replay_append, ih fun q hq => h q (List.mem_append_left _ hq), ofPushes_append_singleton h]
    rfl

/-! ## What the view shows -/

/-- **No bucket is empty:** it was made for a record. -/
theorem ofPushes_not_isEmpty {ps : List Push} (h : ∀ p ∈ ps, p.isUsable = true)
    {entry : Json × Bucket} (hentry : entry ∈ (ofPushes ps).buckets) :
    entry.2.isEmpty = false := by
  obtain ⟨key, hkey, rfl⟩ := List.mem_map.mp hentry
  obtain ⟨p, hp, hcontext⟩ := List.mem_filterMap.mp (Json.mem_of_mem_distinct hkey)
  have husable : key.isKey = true := (Push.isUsable_eq hcontext).symm.trans (h p hp)
  have hmem : p ∈ ps.filter (Push.goesTo key) :=
    List.mem_filter.mpr ⟨hp, (Push.goesTo_eq hcontext key).trans (Json.same_refl husable)⟩
  refine Bool.eq_false_iff.mpr fun hempty => ?_
  generalize ps.filter (Push.goesTo key) = qs at hmem hempty
  simp only [Bucket.isEmpty, Bucket.counts, Bucket.ofPushes, List.all_cons, List.all_nil,
    Bool.and_eq_true, decide_eq_true_eq, List.length_eq_zero_iff, List.filterMap_eq_nil_iff]
    at hempty
  obtain ⟨hfunctions, hinterfaces, htypes, hclasses, hvariables, hexports, -⟩ := hempty
  cases p with
  | declaration heading record context =>
    cases heading with
    | functions => cases hfunctions _ hmem
    | interfaces => cases hinterfaces _ hmem
    | types => cases htypes _ hmem
    | classes => cases hclasses _ hmem
  | variableRecord record context => cases hvariables _ hmem
  | exportRecord record context => cases hexports _ hmem
  | namespaceName name => cases hcontext
  | importRecord record => cases hcontext

/-- A catalogue has more records than another one: its contexts come behind those of the other one,
and so do the records in each of its lists. -/
structure IsPrefixOf (c d : Catalogue) : Prop where
  contexts : c.contexts <+: d.contexts
  buckets : ∀ entry ∈ c.buckets, ∃ b, (entry.1, b) ∈ d.buckets ∧ entry.2.IsPrefixOf b
  namespaces : c.namespaces <+: d.namespaces
  imports : c.imports <+: d.imports

theorem contexts_ofPushes (ps : List Push) :
    (ofPushes ps).contexts = Json.distinct (ps.filterMap Push.context?) := by
  unfold contexts ofPushes
  rw [List.map_map]
  exact List.map_id _

/-- **Pushes only append.** -/
theorem ofPushes_isPrefixOf (ps qs : List Push) :
    (ofPushes ps).IsPrefixOf (ofPushes (ps ++ qs)) where
  contexts := by
    rw [contexts_ofPushes, contexts_ofPushes, List.filterMap_append]
    exact Json.distinct_prefix _ _
  buckets := fun entry hentry => by
    obtain ⟨key, hkey, rfl⟩ := List.mem_map.mp hentry
    refine ⟨Bucket.ofPushes ((ps ++ qs).filter (Push.goesTo key)), ?_, ?_⟩
    · refine List.mem_map.mpr ⟨key, ?_, rfl⟩
      rw [List.filterMap_append]
      exact (Json.distinct_prefix _ _).subset hkey
    · rw [List.filter_append]
      exact Bucket.ofPushes_isPrefixOf _ _
  namespaces := by
    show Json.distinct _ <+: Json.distinct _
    rw [List.filterMap_append]
    exact Json.distinct_prefix _ _
  imports := by
    show _ <+: (ps ++ qs).filterMap _
    rw [List.filterMap_append]
    exact List.prefix_append _ _

end Catalogue

end DeclCatalogue
