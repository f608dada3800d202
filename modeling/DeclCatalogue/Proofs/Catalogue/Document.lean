import DeclCatalogue.Catalogue.Document
import DeclCatalogue.Proofs.Catalogue.Replay
import DeclCatalogue.Proofs.Record.RoundTrip

/-!
# The document of a catalogue loses nothing

`Catalogue.ofDocument` reads a document back: the value of each context as a bucket, in order, the
namespaces as they stand, and each import from the name under which it is written. A catalogue whose
contexts are texts is read back as it was, and one that is written without nodes is read with empty
ones (`ofDocument_document`).

`Json.withoutNodes` takes the nodes out of a document: of every item of the four lists of
declarations of every context it drops the field `node`, and it changes nothing else, whatever other
fields are called. What is written without nodes is what is written with them, less the nodes
(`document_withoutNodes`).
-/

namespace DeclCatalogue

open Checked

/-! ## Taking nodes out of a document -/

namespace Json

/-- An object without the fields of a name. -/
def dropField (key : String) : Json → Json
  | .obj fields => .obj (fields.filter fun f => f.1 ≠ key)
  | v => v

/-- An object in which the values of the fields of some names are changed. -/
def changeFields (named : String → Bool) (change : Json → Json) : Json → Json
  | .obj fields => .obj (fields.map fun f => if named f.1 then (f.1, change f.2) else f)
  | v => v

/-- A list in which every item is changed. -/
def changeItems (change : Json → Json) : Json → Json
  | .arr vs => .arr (vs.map change)
  | v => v

/-- The value of a context without the nodes of its declarations. -/
def bucketWithoutNodes : Json → Json :=
  changeFields (["functions", "interfaces", "types", "classes"].contains ·)
    (changeItems (dropField "node"))

/-- A document without the nodes of declarations. -/
def withoutNodes : Json → Json :=
  changeFields (· = "contexts") (changeFields (fun _ => true) bucketWithoutNodes)

end Json

theorem Declaration.dropField_toJson (d : Declaration) :
    (d.toJson true).dropField "node" = d.toJson false := by
  simp [toJson, toFields, Json.dropField]

theorem Bucket.toJson_withoutNodes (b : Bucket) :
    (b.toJson true).bucketWithoutNodes = b.toJson false := by
  have hlist : ∀ ds : List Declaration,
      (ds.map (Declaration.toJson true)).map (Json.dropField "node") =
        ds.map (Declaration.toJson false) := by
    intro ds
    rw [List.map_map]
    exact List.map_congr_left fun d _ => d.dropField_toJson
  simp [toJson, Json.bucketWithoutNodes, Json.changeFields, Json.changeItems, hlist]

namespace Catalogue

/-- **Leaving nodes out is taking them out.** -/
theorem document_withoutNodes (catalogue : Catalogue) :
    (catalogue.document true).withoutNodes = catalogue.document false := by
  have hbuckets :
      (catalogue.buckets.map fun b => (contextKey b.1, b.2.toJson true)).map
          (fun f => (f.1, f.2.bucketWithoutNodes)) =
        catalogue.buckets.map fun b => (contextKey b.1, b.2.toJson false) := by
    rw [List.map_map]
    exact List.map_congr_left fun b _ => congrArg (Prod.mk _) b.2.toJson_withoutNodes
  unfold document
  rw [← hbuckets]
  simp [Json.withoutNodes, Json.changeFields]

/-! ## Reading a document -/

/-- Reads the value of every field of an object, and keeps the names. -/
def readEntries {α : Type} (check : Json → Checked α) : Fields → Checked (List (Json × α))
  | [] => .valid []
  | (key, v) :: rest =>
    (fun a as => (.str key, a) :: as) <$> (check v).under key <*> readEntries check rest

/-- Reads a document: the value of each context as a bucket, the namespaces as they stand, and each
import. -/
def ofDocument : Json → Checked Catalogue :=
  record fun fields =>
    Catalogue.mk <$> required fields "contexts" (record (readEntries Bucket.ofJson))
      <*> required fields "namespaces" (items .valid)
      <*> required fields "imports" (items ImportRecord.ofJson)

/-- A catalogue whose declarations have no nodes. -/
def bare (catalogue : Catalogue) : Catalogue :=
  { catalogue with buckets := catalogue.buckets.map fun b => (b.1, b.2.bare) }

/-- A catalogue whose contexts are texts. -/
def HasTextContexts (catalogue : Catalogue) : Prop :=
  ∀ context ∈ catalogue.contexts, ∃ s, context = .str s

/-- Buckets under texts are read in order, each with what a bucket is read as. -/
theorem readEntries_map {withNodes : Bool} {f : Bucket → Bucket}
    (h : ∀ b : Bucket, Bucket.ofJson (b.toJson withNodes) = .valid (f b))
    {buckets : List (Json × Bucket)} (htexts : ∀ b ∈ buckets, ∃ s, b.1 = .str s) :
    readEntries Bucket.ofJson (buckets.map fun b => (contextKey b.1, b.2.toJson withNodes)) =
      .valid (buckets.map fun b => (b.1, f b.2)) := by
  induction buckets with
  | nil => rfl
  | cons first rest ih =>
    obtain ⟨context, b⟩ := first
    obtain ⟨s, rfl⟩ := htexts _ (List.mem_cons_self ..)
    rw [List.map_cons, readEntries, h, ih fun c hc => htexts c (List.mem_cons_of_mem _ hc)]
    rfl

/-- A catalogue is read with what its buckets are read as. -/
theorem ofDocument_document_of {withNodes : Bool} {f : Bucket → Bucket}
    (h : ∀ b : Bucket, Bucket.ofJson (b.toJson withNodes) = .valid (f b)) {catalogue : Catalogue}
    (htexts : catalogue.HasTextContexts) :
    ofDocument (catalogue.document withNodes) =
      .valid { catalogue with buckets := catalogue.buckets.map fun b => (b.1, f b.2) } := by
  have hbuckets := readEntries_map h fun b hb => htexts b.1 (List.mem_map_of_mem hb)
  have hnamespaces : items Checked.valid (.arr catalogue.namespaces) =
      .valid catalogue.namespaces := by
    have hmap : items Checked.valid (.arr (catalogue.namespaces.map id)) =
        .valid (catalogue.namespaces.map id) := items_map (fun _ => rfl) catalogue.namespaces
    rwa [List.map_id] at hmap
  have himports := items_map (f := id) (fun i => ImportRecord.ofJson_toJson i (.inl rfl))
    catalogue.imports
  simp [ofDocument, document, record, required, Json.find?, hbuckets, hnamespaces, himports]

/-- **A document is read back,** with the nodes that are written, or with empty ones. -/
theorem ofDocument_document {catalogue : Catalogue} (h : catalogue.HasTextContexts) :
    ofDocument (catalogue.document true) = .valid catalogue ∧
      ofDocument (catalogue.document false) = .valid catalogue.bare := by
  refine ⟨?_, ofDocument_document_of Bucket.ofJson_bare h⟩
  rw [ofDocument_document_of (f := id) Bucket.ofJson_toJson h]
  simp

/-! ## Catalogues that were pushed -/

/-- What is pushed under texts has texts for its contexts, no two of them the same. -/
theorem contexts_replay {ps : List Push}
    (h : ∀ p ∈ ps, ∀ context, p.context? = some context → ∃ s, context = .str s) :
    (Catalogue.empty.replay ps).HasTextContexts ∧ (Catalogue.empty.replay ps).contexts.Nodup := by
  have husable : ∀ p ∈ ps, p.isUsable = true := by
    intro p hp
    cases hcontext : p.context? with
    | none =>
      unfold Push.isUsable
      rw [hcontext]
      rfl
    | some context =>
      obtain ⟨s, rfl⟩ := h p hp context hcontext
      exact Push.isUsable_eq hcontext
  have htexts : ∀ context ∈ Json.distinct (ps.filterMap Push.context?), ∃ s, context = .str s := by
    intro context hmem
    obtain ⟨p, hp, hcontext⟩ := List.mem_filterMap.mp (Json.mem_of_mem_distinct hmem)
    exact h p hp context hcontext
  unfold HasTextContexts
  rw [replay_empty husable, contexts_ofPushes]
  refine ⟨htexts, (Json.distinct_pairwise _).imp_of_mem fun {c d} hc _ hdiffer heq => ?_⟩
  -- a text is the same as itself
  obtain ⟨s, rfl⟩ := htexts c hc
  rw [← heq, Json.same_refl rfl] at hdiffer
  cases hdiffer

/-- The names of the contexts in a document are the contexts, in their order. -/
theorem contexts_document {catalogue : Catalogue} (h : catalogue.HasTextContexts)
    (withNodes : Bool) : ∃ entries, (catalogue.document withNodes).field "contexts" = .obj entries ∧
      entries.map (fun entry => Json.str entry.1) = catalogue.contexts := by
  refine ⟨_, rfl, ?_⟩
  rw [List.map_map]
  refine List.map_congr_left fun b hb => ?_
  obtain ⟨s, hs⟩ := h b.1 (List.mem_map_of_mem hb)
  show Json.str (contextKey b.1) = b.1
  rw [hs]
  rfl

/-- **The document of a catalogue loses nothing.** Let anything be pushed to the empty catalogue, all
under texts. In its document each context has an entry of its own, in the order of the contexts.
Read back, the value of each context as a bucket and each import as an import, the document gives the
same buckets under the same contexts in the same order, the same namespaces and the same imports. The
document without nodes is this document with the field `node` dropped from the items of the four
lists of declarations in each context, and with nothing else changed; read back it gives the same
catalogue with every node empty. -/
theorem document_lossless {ps : List Push}
    (h : ∀ p ∈ ps, ∀ context, p.context? = some context → ∃ s, context = .str s) :
    let catalogue := Catalogue.empty.replay ps
    (∀ withNodes, ∃ entries, (catalogue.document withNodes).field "contexts" = .obj entries ∧
      entries.map (fun entry => Json.str entry.1) = catalogue.contexts ∧
      (entries.map (·.1)).Nodup) ∧
    ofDocument (catalogue.document true) = .valid catalogue ∧
    catalogue.document false = (catalogue.document true).withoutNodes ∧
    ofDocument (catalogue.document false) = .valid catalogue.bare := by
  intro catalogue
  obtain ⟨htexts, hnodup⟩ := contexts_replay h
  obtain ⟨hread, hbare⟩ := ofDocument_document htexts
  refine ⟨fun withNodes => ?_, hread, (document_withoutNodes catalogue).symm, hbare⟩
  obtain ⟨entries, hentries, hnames⟩ := contexts_document htexts withNodes
  refine ⟨entries, hentries, hnames, ?_⟩
  rw [← hnames] at hnodup
  have hmap : entries.map (fun entry => Json.str entry.1) = (entries.map (·.1)).map Json.str :=
    (List.map_map ..).symm
  rw [hmap] at hnodup
  exact List.Pairwise.of_map Json.str (fun _ _ hne heq => hne (congrArg Json.str heq)) hnodup

/-- Two functions, a variable, a namespace and an import, with `node` for a context, a name and a
field of a node. Without its nodes the document still has the context and the variable. -/
theorem document_lossless_node :
    let function (name : Name) : Declaration :=
      ⟨"node", .function, name, false, [("name", .obj [("text", .str name)]), ("node", .int 1)]⟩
    let ps : List Push := [.declaration .functions (function ⟨"f", by decide⟩) (.str "node"),
      .namespaceName (.str "N"), .importRecord ⟨.default, ⟨"React", by decide⟩, ⟨"react", by decide⟩⟩,
      .variableRecord ⟨some "root", ⟨"node", by decide⟩, ⟨"T", by decide⟩, none⟩ (.str "root"),
      .declaration .functions (function ⟨"g", by decide⟩) (.str "node")]
    let catalogue := Catalogue.empty.replay ps
    catalogue.contexts = [.str "node", .str "root"] ∧
      ofDocument (catalogue.document true) = .valid catalogue ∧
      catalogue.document false = (catalogue.document true).withoutNodes ∧
      ofDocument (catalogue.document false) = .valid catalogue.bare := by
  intro function ps catalogue
  have htexts : ∀ p ∈ ps, ∀ context, p.context? = some context → ∃ s, context = .str s := by
    intro p hp context hcontext
    simp only [ps, List.mem_cons, List.not_mem_nil, or_false] at hp
    rcases hp with rfl | rfl | rfl | rfl | rfl <;> cases hcontext <;> exact ⟨_, rfl⟩
  exact ⟨by decide +kernel, (document_lossless htexts).2⟩

end Catalogue

end DeclCatalogue
