import DeclCatalogue.Catalogue.Basic

/-!
# The declarations in a catalogue

A push adds one record to one list of one bucket. `Catalogue.EachDeclaration` says something of
every declaration in a catalogue together with the key of its bucket and its heading, and
`Catalogue.eachDeclaration_push` is what has to be shown for a push to keep it: the pushed
declaration has the property under every key that is equal by value to its context.
-/

namespace DeclCatalogue

open Catalogue (updateBucket)

/-- A value that is equal to a text by value is that text. -/
theorem Json.eq_str_of_same {v : Json} {s : String} (h : v.same (.str s) = true) : v = .str s := by
  cases v with
  | str t =>
    rw [Json.same_str] at h
    rw [of_decide_eq_true h]
  | real x => simp [Json.same, Json.sameNumber, Json.integer?] at h
  | _ => simp [Json.same, Json.sameNumber, Json.integer?] at h

namespace Bucket

theorem declarations_empty (heading : Heading) : Bucket.empty.declarations heading = [] := by
  cases heading <;> rfl

/-- Adding a declaration under a heading adds it there and nowhere else. -/
theorem mem_declarations_addDeclaration {b : Bucket} {d e : Declaration} {heading other : Heading}
    (h : e ∈ (b.addDeclaration d heading).declarations other) :
    e ∈ b.declarations other ∨ (e = d ∧ other = heading) := by
  by_cases hsame : other = heading
  · subst hsame
    have hmem : e ∈ b.declarations other ++ [d] := by cases other <;> exact h
    rcases List.mem_append.mp hmem with hold | hnew
    · exact .inl hold
    · exact .inr ⟨List.mem_singleton.mp hnew, rfl⟩
  · refine .inl ?_
    cases heading <;> cases other <;> first | exact h | exact absurd rfl hsame

end Bucket

namespace Catalogue

/-- Every declaration in the catalogue has the property, with the key of its bucket and its
heading. -/
def EachDeclaration (P : Json → Heading → Declaration → Prop) (catalogue : Catalogue) : Prop :=
  ∀ entry ∈ catalogue.buckets, ∀ heading, ∀ record ∈ entry.2.declarations heading,
    P entry.1 heading record

/-- A changed bucket is one that was there before under an equal key, or an empty one. -/
theorem mem_updateBucket {context : Json} {change : Bucket → Bucket}
    {buckets : List (Json × Bucket)} {entry : Json × Bucket}
    (h : entry ∈ updateBucket context change buckets) :
    entry ∈ buckets ∨ entry = (context, change Bucket.empty) ∨
      ∃ b, (entry.1, b) ∈ buckets ∧ entry.1.same context = true ∧ entry.2 = change b := by
  induction buckets with
  | nil => exact .inr (.inl (List.mem_singleton.mp h))
  | cons first rest ih =>
    obtain ⟨c, b⟩ := first
    rw [updateBucket] at h
    split at h
    next hsame =>
      rcases List.mem_cons.mp h with rfl | hrest
      · exact .inr (.inr ⟨b, List.mem_cons_self .., hsame, rfl⟩)
      · exact .inl (List.mem_cons_of_mem _ hrest)
    next =>
      rcases List.mem_cons.mp h with rfl | hrest
      · exact .inl (List.mem_cons_self ..)
      · rcases ih hrest with hold | hnew | ⟨b', hmem, hsame, heq⟩
        · exact .inl (List.mem_cons_of_mem _ hold)
        · exact .inr (.inl hnew)
        · exact .inr (.inr ⟨b', List.mem_cons_of_mem _ hmem, hsame, heq⟩)

variable {P : Json → Heading → Declaration → Prop} {catalogue : Catalogue}

theorem eachDeclaration_empty : EachDeclaration P Catalogue.empty := by
  intro entry hentry
  cases hentry

/-- Changing a bucket keeps a property of all declarations if what the change adds has it, under
every key that the bucket may have. -/
theorem eachDeclaration_update {context : Json} {change : Bucket → Bucket}
    (h : EachDeclaration P catalogue)
    (hchange : ∀ b key heading record, key = context ∨ key.same context = true →
      record ∈ (change b).declarations heading →
        record ∈ b.declarations heading ∨ P key heading record) :
    EachDeclaration P (catalogue.update context change) := by
  intro entry hentry heading record hrecord
  rcases mem_updateBucket hentry with hold | rfl | ⟨b, hmem, hsame, heq⟩
  · exact h entry hold heading record hrecord
  · rcases hchange Bucket.empty context heading record (.inl rfl) hrecord with hold | hnew
    · rw [Bucket.declarations_empty] at hold
      cases hold
    · exact hnew
  · rw [heq] at hrecord
    rcases hchange b entry.1 heading record (.inr hsame) hrecord with hold | hnew
    · exact h _ hmem heading record hold
    · exact hnew

/-- A push keeps a property of all declarations if the declaration that it may push has it. -/
theorem eachDeclaration_push {p : Push} (h : EachDeclaration P catalogue)
    (hpush : ∀ heading record context, p = .declaration heading record context →
      ∀ key : Json, key = context ∨ key.same context = true → P key heading record) :
    EachDeclaration P (catalogue.push p) := by
  cases p with
  | declaration heading record context =>
    refine eachDeclaration_update h fun b key other d hkey hd => ?_
    rcases Bucket.mem_declarations_addDeclaration hd with hold | ⟨rfl, rfl⟩
    · exact .inl hold
    · exact .inr (hpush _ _ _ rfl key hkey)
  | variableRecord record context =>
    exact eachDeclaration_update h fun b key heading d _ hd => .inl (by cases heading <;> exact hd)
  | exportRecord record context =>
    exact eachDeclaration_update h fun b key heading d _ hd => .inl (by cases heading <;> exact hd)
  | namespaceName name =>
    unfold push
    dsimp only
    split
    · exact h
    · exact h
  | importRecord record => exact h

/-- Pushes of declarations under their own contexts keep a property of all declarations if each of
them has it there. -/
theorem eachDeclaration_replay {pushes : List Push} (h : EachDeclaration P catalogue)
    (hpushes : ∀ heading record context, .declaration heading record context ∈ pushes →
      context = .str record.context ∧ P context heading record) :
    EachDeclaration P (catalogue.replay pushes) := by
  unfold replay
  induction pushes generalizing catalogue with
  | nil => exact h
  | cons p rest ih =>
    rw [List.foldl_cons]
    refine ih (eachDeclaration_push h fun heading record context hp key hkey => ?_)
      fun heading record context hmem =>
        hpushes heading record context (List.mem_cons_of_mem _ hmem)
    obtain ⟨hcontext, hP⟩ := hpushes heading record context (hp ▸ List.mem_cons_self ..)
    have heq : key = context := by
      rcases hkey with rfl | hsame
      · rfl
      · rw [hcontext] at hsame ⊢
        exact Json.eq_str_of_same hsame
    rw [heq]
    exact hP

end Catalogue

end DeclCatalogue
