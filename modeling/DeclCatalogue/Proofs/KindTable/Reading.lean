import DeclCatalogue.KindTable
import DeclCatalogue.Proofs.Text.Numeral
import Mathlib.Data.List.TakeWhile

/-!
# Reading a kind table

A kind table is read from an object whose fields go from name to tag or from tag to name, in any
mixture. `Calls` says by the fields alone what a tag is called: the first field from name to tag
counts, and where there is none, the first one from tag to name. The table that is read says the
same (`calls_of_ofFields`), although it gathers the two directions apart and drops what comes later.

`ofFields_of_short` is the whole of it for field names that are not too long to be read as a number:
the one reason for a fault is a name that looks like a tag and is no numeral. `IsRefused` also has
the numerals with too many digits, so that `calls_of_ofFields` can say of all fields what a table
that is read has in it.
-/

namespace DeclCatalogue.KindTable

variable {fields : Fields} {table : KindTable} {tag : Int}

/-! ## What the fields say -/

/-- A name marks a range of kinds and is no name of a kind. -/
def MarksRange (name : String) : Prop :=
  "First".toList <+: name.toList ∨ "Last".toList <+: name.toList

/-- A field goes from a name to the tag. -/
def LeadsTo (tag : Int) (f : String × Json) : Prop :=
  f.2 = .int tag ∧ ¬ MarksRange f.1

/-- A field goes from the tag, written as a numeral, to a name. -/
def LeadsFrom (tag : Int) (f : String × Json) : Prop :=
  Text.IsInteger f.1.toList tag ∧ ∃ name, f.2 = .str name ∧ ¬ MarksRange name

/-- A member of a list has a property that none in front of it has. -/
def IsFirst {α : Type} (p : α → Prop) (xs : List α) (x : α) : Prop :=
  ∃ before after, xs = before ++ x :: after ∧ p x ∧ ∀ y ∈ before, ¬ p y

/-- What fields call a tag, none if no field has to do with it. -/
inductive Calls (fields : Fields) (tag : Int) : Option String → Prop where
  | forward {name : String} (h : IsFirst (LeadsTo tag) fields (name, .int tag)) :
      Calls fields tag (some name)
  | reverse {key name : String} (hnone : ∀ f ∈ fields, ¬ LeadsTo tag f)
      (h : IsFirst (LeadsFrom tag) fields (key, .str name)) : Calls fields tag (some name)
  | unnamed (hto : ∀ f ∈ fields, ¬ LeadsTo tag f) (hfrom : ∀ f ∈ fields, ¬ LeadsFrom tag f) :
      Calls fields tag none

/-- A field goes to a name from something that looks like a tag and is no numeral. -/
def IsFaulty (f : String × Json) : Prop :=
  ∃ name, f.2 = .str name ∧ ¬ MarksRange name ∧ Text.LooksNumeric f.1 ∧
    ¬ ∃ tag, Text.IsInteger f.1.toList tag

/-- A field goes to a name from something that looks like a tag and is not read as one. -/
def IsRefused (f : String × Json) : Prop :=
  ∃ name, f.2 = .str name ∧ ¬ MarksRange name ∧ Text.LooksNumeric f.1 ∧
    Text.integer? f.1.toList = none

/-! ## Firsts -/

section First

variable {α : Type} {p : α → Prop} {xs : List α} {x y : α}

theorem IsFirst.mem (h : IsFirst p xs x) : x ∈ xs := by
  obtain ⟨before, after, rfl, -, -⟩ := h
  exact List.mem_append_right _ (List.mem_cons_self ..)

theorem IsFirst.holds (h : IsFirst p xs x) : p x := by
  obtain ⟨-, -, -, hx, -⟩ := h
  exact hx

theorem IsFirst.head (h : p x) : IsFirst p (x :: xs) x :=
  ⟨[], xs, rfl, h, fun _ hmem => absurd hmem List.not_mem_nil⟩

theorem IsFirst.cons (hy : ¬ p y) (h : IsFirst p xs x) : IsFirst p (y :: xs) x := by
  obtain ⟨before, after, rfl, hx, hbefore⟩ := h
  exact ⟨y :: before, after, rfl, hx, List.forall_mem_cons.mpr ⟨hy, hbefore⟩⟩

/-- There is one first member. -/
theorem IsFirst.unique (h : IsFirst p xs x) (h' : IsFirst p xs y) : x = y := by
  obtain ⟨before, after, rfl, hx, hbefore⟩ := h
  obtain ⟨before', after', hsplit, hy, hbefore'⟩ := h'
  obtain ⟨middle, rfl, hafter⟩ | ⟨middle, rfl, hafter⟩ := List.append_eq_append_iff.mp hsplit
  · cases middle with
    | nil => exact (List.cons.inj hafter).1
    | cons z zs =>
      obtain rfl := (List.cons.inj hafter).1
      exact absurd hx (hbefore' x (List.mem_append_right _ (List.mem_cons_self ..)))
  · cases middle with
    | nil => exact (List.cons.inj hafter).1.symm
    | cons z zs =>
      obtain rfl := (List.cons.inj hafter).1
      exact absurd hy (hbefore y (List.mem_append_right _ (List.mem_cons_self ..)))

/-- Of the entries that members are read as, the first one of a tag is that of the first member with
the tag. -/
theorem find?_filterMap_cases {pick? : α → Option (Int × String)} {tag : Int}
    (hp : ∀ x ∈ xs, p x ↔ ∃ name, pick? x = some (tag, name)) :
    (∃ x name, IsFirst p xs x ∧ pick? x = some (tag, name) ∧
      (xs.filterMap pick?).find? (fun e => e.1 = tag) = some (tag, name)) ∨
    (∀ x ∈ xs, ¬ p x) ∧ (xs.filterMap pick?).find? (fun e => e.1 = tag) = none := by
  induction xs with
  | nil => exact .inr ⟨fun _ h => absurd h List.not_mem_nil, rfl⟩
  | cons x xs ih =>
    obtain ⟨hpx, hpxs⟩ := List.forall_mem_cons.mp hp
    by_cases hx : p x
    · obtain ⟨name, hname⟩ := hpx.mp hx
      refine .inl ⟨x, name, .head hx, hname, ?_⟩
      rw [List.filterMap_cons_some hname, List.find?_cons_of_pos (by simp)]
    · have hskip : ((x :: xs).filterMap pick?).find? (fun e => e.1 = tag) =
          (xs.filterMap pick?).find? fun e => e.1 = tag := by
        cases hentry : pick? x with
        | none => rw [List.filterMap_cons_none hentry]
        | some entry =>
          have hother : ¬ entry.1 = tag := fun htag => hx (hpx.mpr ⟨entry.2, htag ▸ hentry⟩)
          rw [List.filterMap_cons_some hentry, List.find?_cons_of_neg (by simpa using hother)]
      rw [hskip]
      obtain ⟨first, name, hfirst, hname, hfind⟩ | ⟨hnone, hfind⟩ := ih hpxs
      · exact .inl ⟨first, name, hfirst.cons hx, hname, hfind⟩
      · exact .inr ⟨List.forall_mem_cons.mpr ⟨hx, hnone⟩, hfind⟩

end First

/-- Fields call a tag one thing. -/
theorem Calls.unique {name? other? : Option String} (h : Calls fields tag name?)
    (h' : Calls fields tag other?) : name? = other? := by
  cases h with
  | forward h =>
    cases h' with
    | forward h' => rw [(Prod.mk.inj (h.unique h')).1]
    | reverse hnone => exact absurd h.holds (hnone _ h.mem)
    | unnamed hto => exact absurd h.holds (hto _ h.mem)
  | reverse hnone h =>
    cases h' with
    | forward h' => exact absurd h'.holds (hnone _ h'.mem)
    | reverse _ h' => rw [Json.str.inj (Prod.mk.inj (h.unique h')).2]
    | unnamed _ hfrom => exact absurd h.holds (hfrom _ h.mem)
  | unnamed hto hfrom =>
    cases h' with
    | forward h' => exact absurd h'.holds (hto _ h'.mem)
    | reverse _ h' => exact absurd h'.holds (hfrom _ h'.mem)
    | unnamed => rfl

/-! ## Single fields -/

theorem isRangeMarker_iff {name : String} : isRangeMarker name = true ↔ MarksRange name := by
  simp only [isRangeMarker, MarksRange, Bool.or_eq_true, List.isPrefixOf_iff_prefix]

instance (name : String) : Decidable (MarksRange name) :=
  decidable_of_iff _ isRangeMarker_iff

instance (tag : Int) (f : String × Json) : Decidable (LeadsTo tag f) :=
  inferInstanceAs (Decidable (_ ∧ _))

theorem isTag_iff {key : String} : isTag key = true ↔ Text.LooksNumeric key := by
  constructor
  · intro h
    simp only [isTag, Text.isDigits, Bool.and_eq_true, List.all_eq_true, Bool.not_eq_true',
      List.isEmpty_eq_false_iff] at h
    refine ⟨(key.toList.takeWhile (· = '-')).length, _, ?_, h.1, h.2⟩
    have hsigns : key.toList.takeWhile (· = '-') =
        List.replicate (key.toList.takeWhile (· = '-')).length '-' :=
      List.eq_replicate_of_mem fun c hc => by simpa using List.mem_takeWhile_imp hc
    rw [← hsigns, List.takeWhile_append_dropWhile]
  · rintro ⟨signs, digits, hkey, hne, hdigits⟩
    obtain ⟨c, cs, rfl⟩ := List.exists_cons_of_ne_nil hne
    have hc : ¬ c = '-' := by
      rintro rfl
      exact absurd (hdigits _ (List.mem_cons_self ..)) (by rw [Text.isDigit_minus]; simp)
    have hdrop : key.toList.dropWhile (· = '-') = c :: cs := by
      rw [hkey, List.dropWhile_append_of_pos (by simp),
        List.dropWhile_cons_of_neg (by simpa using hc)]
    rw [isTag, hdrop, Text.isDigits, List.isEmpty_cons, Bool.not_false, Bool.true_and,
      List.all_eq_true]
    exact hdigits

/-- The entry that a field from name to tag is read as. -/
def forwardPair? : String × Json → Option (Int × String)
  | (name, .int tag) => if isRangeMarker name then none else some (tag, name)
  | _ => none

/-- The entry that a field from tag to name is read as. -/
def reversePair? : String × Json → Option (Int × String)
  | (key, .str name) =>
    if isTag key && !isRangeMarker name then
      (Text.integer? key.toList).map fun (tag : Int) => (tag, name)
    else none
  | _ => none

theorem forwardPair?_eq_some_iff {f : String × Json} {e : Int × String} :
    forwardPair? f = some e ↔ f = (e.2, .int e.1) ∧ ¬ MarksRange e.2 := by
  obtain ⟨key, value⟩ := f
  rw [← isRangeMarker_iff]
  cases value with
  | int tag =>
    simp only [forwardPair?, Prod.ext_iff, Json.int.injEq]
    split <;> grind
  | _ => simp [forwardPair?, Prod.ext_iff]

theorem reversePair?_eq_some_iff {f : String × Json} {e : Int × String} :
    reversePair? f = some e ↔ f.2 = .str e.2 ∧ ¬ MarksRange e.2 ∧ Text.LooksNumeric f.1 ∧
      Text.integer? f.1.toList = some e.1 := by
  obtain ⟨key, value⟩ := f
  rw [← isRangeMarker_iff, ← isTag_iff]
  cases value with
  | str name =>
    simp only [reversePair?, Json.str.injEq]
    split
    · rw [Option.map_eq_some_iff]
      grind
    · grind
  | _ => simp [reversePair?]

theorem leadsTo_iff {f : String × Json} :
    LeadsTo tag f ↔ ∃ name, forwardPair? f = some (tag, name) := by
  simp only [forwardPair?_eq_some_iff]
  constructor
  · rintro ⟨htag, hmarks⟩
    exact ⟨f.1, Prod.ext rfl htag, hmarks⟩
  · rintro ⟨name, rfl, hmarks⟩
    exact ⟨rfl, hmarks⟩

/-- A field from tag to name that is not refused is read as what it says. -/
theorem leadsFrom_iff {f : String × Json} (h : ¬ IsRefused f) :
    LeadsFrom tag f ↔ ∃ name, reversePair? f = some (tag, name) := by
  simp only [reversePair?_eq_some_iff]
  constructor
  · rintro ⟨hkey, name, hname, hmarks⟩
    have hread : Text.integer? f.1.toList ≠ none := fun hnone =>
      h ⟨name, hname, hmarks, hkey.looksNumeric, hnone⟩
    obtain ⟨other, hother⟩ := Option.ne_none_iff_exists'.mp hread
    have htag : other = tag := (Text.isInteger_of_integer? hother).unique hkey
    exact ⟨name, hname, hmarks, hkey.looksNumeric, htag ▸ hother⟩
  · rintro ⟨name, hname, hmarks, -, hread⟩
    exact ⟨Text.isInteger_of_integer? hread, name, hname, hmarks⟩

theorem isFaulty_iff_isRefused {f : String × Json} (h : f.1.length ≤ Text.maxDigits) :
    IsFaulty f ↔ IsRefused f := by
  have hread : (¬ ∃ tag, Text.IsInteger f.1.toList tag) ↔ Text.integer? f.1.toList = none := by
    simp only [← Text.integer?_eq_some_iff (String.length_toList ▸ h), not_exists]
    exact Option.eq_none_iff_forall_ne_some.symm
  simp only [IsFaulty, IsRefused, hread]

/-! ## The table -/

theorem reverseEntries_cons_of_isRefused {f : String × Json} (h : IsRefused f) (rest : Fields) :
    reverseEntries (f :: rest) = .error .badNumeral := by
  obtain ⟨key, value⟩ := f
  obtain ⟨name, rfl, hmarks, hnumeric, hread⟩ := h
  rw [← isRangeMarker_iff, Bool.not_eq_true] at hmarks
  rw [← isTag_iff] at hnumeric
  simp only at hnumeric hread
  simp [reverseEntries, hnumeric, hmarks, hread]

theorem reverseEntries_cons {f : String × Json} (h : ¬ IsRefused f) (rest : Fields) :
    reverseEntries (f :: rest) = (reverseEntries rest).map ((reversePair? f).toList ++ ·) := by
  have hskip : reverseEntries rest =
      (reverseEntries rest).map (([] : List (Int × String)) ++ ·) := by
    cases reverseEntries rest <;> rfl
  obtain ⟨key, value⟩ := f
  cases value with
  | str name =>
    rw [reverseEntries, reversePair?]
    split
    next hcond =>
      cases hread : Text.integer? key.toList with
      | none =>
        rw [Bool.and_eq_true, Bool.not_eq_true', ← Bool.not_eq_true, isTag_iff,
          isRangeMarker_iff] at hcond
        exact absurd ⟨name, rfl, hcond.2, hcond.1, hread⟩ h
      | some tag => rfl
    next => exact hskip
  | _ => exact hskip

theorem reverseEntries_of_isRefused (h : ∃ f ∈ fields, IsRefused f) :
    reverseEntries fields = .error .badNumeral := by
  obtain ⟨f, hmem, hf⟩ := h
  induction fields with
  | nil => exact absurd hmem List.not_mem_nil
  | cons g rest ih =>
    by_cases hg : IsRefused g
    · exact reverseEntries_cons_of_isRefused hg rest
    · have hrest : f ∈ rest := (List.mem_cons.mp hmem).resolve_left fun heq => hg (heq ▸ hf)
      rw [reverseEntries_cons hg, ih hrest]
      rfl

theorem reverseEntries_of_forall_not_isRefused (h : ∀ f ∈ fields, ¬ IsRefused f) :
    reverseEntries fields = .ok (fields.filterMap reversePair?) := by
  induction fields with
  | nil => rfl
  | cons f rest ih =>
    obtain ⟨hf, hrest⟩ := List.forall_mem_cons.mp h
    rw [reverseEntries_cons hf, ih hrest]
    cases hentry : reversePair? f with
    | none => rw [List.filterMap_cons_none hentry]; rfl
    | some e => rw [List.filterMap_cons_some hentry]; rfl

/-- A table is read if no field is refused. -/
theorem ofFields_of_forall_not_isRefused (h : ∀ f ∈ fields, ¬ IsRefused f) : ofFields fields =
    .ok (ofEntries (fields.filterMap forwardPair? ++ fields.filterMap reversePair?)) := by
  have hforward : forwardEntries fields = fields.filterMap forwardPair? := rfl
  rw [ofFields, reverseEntries_of_forall_not_isRefused h, hforward]
  rfl

theorem ofFields_of_isRefused (h : ∃ f ∈ fields, IsRefused f) :
    ofFields fields = .error .badNumeral := by
  rw [ofFields, reverseEntries_of_isRefused h, Except.map]

theorem ofFields_eq_error_iff {fault : Fault} :
    ofFields fields = .error fault ↔ fault = .badNumeral ∧ ∃ f ∈ fields, IsRefused f := by
  by_cases h : ∃ f ∈ fields, IsRefused f
  · rw [ofFields_of_isRefused h, Except.error.injEq]
    exact ⟨fun hfault => ⟨hfault.symm, h⟩, fun hfault => hfault.1.symm⟩
  · rw [ofFields_of_forall_not_isRefused fun f hf hrefused => h ⟨f, hf, hrefused⟩]
    exact ⟨fun hfault => (by cases hfault), fun hfault => absurd hfault.2 h⟩

theorem not_isRefused_of_ofFields (h : ofFields fields = .ok table) :
    ∀ f ∈ fields, ¬ IsRefused f := fun f hf hrefused => by
  rw [ofFields_of_isRefused ⟨f, hf, hrefused⟩] at h
  cases h

/-- **A table that is read gives each tag the name that the fields call it.** -/
theorem calls_of_ofFields (h : ofFields fields = .ok table) (tag : Int) :
    Calls fields tag (table.find? tag) := by
  have hread := not_isRefused_of_ofFields h
  rw [ofFields_of_forall_not_isRefused hread, Except.ok.injEq] at h
  rw [← h, find?_ofEntries, List.find?_append]
  obtain ⟨f, name, hfirst, hname, hfind⟩ | ⟨hto, hfind⟩ :=
    find?_filterMap_cases fun f (_ : f ∈ fields) => (leadsTo_iff : LeadsTo tag f ↔ _)
  · rw [hfind]
    obtain ⟨rfl, -⟩ := forwardPair?_eq_some_iff.mp hname
    exact .forward hfirst
  rw [hfind, Option.none_or]
  -- no field to the tag: what is read of a field that is not refused is what leads from the tag
  obtain ⟨f, name, hfirst, hname, hfind⟩ | ⟨hfrom, hfind⟩ :=
    find?_filterMap_cases fun f hf => (leadsFrom_iff (hread f hf) : LeadsFrom tag f ↔ _)
  · rw [hfind]
    obtain ⟨key, value⟩ := f
    obtain ⟨rfl, -⟩ := reversePair?_eq_some_iff.mp hname
    exact .reverse hto hfirst
  · rw [hfind]
    exact .unnamed hto hfrom

theorem mem_of_mem_firstOfEach {entries : List (Int × String)} {e : Int × String}
    (h : e ∈ firstOfEach entries) : e ∈ entries := by
  induction entries with
  | nil => exact h
  | cons f rest ih =>
    rcases List.mem_cons.mp h with rfl | hrest
    · exact List.mem_cons_self ..
    · exact List.mem_cons_of_mem _ (ih (List.mem_filter.mp hrest).1)

/-- No name of a table that is read marks a range. -/
theorem not_marksRange_of_ofFields (h : ofFields fields = .ok table) {e : Int × String}
    (he : e ∈ table.entries) : ¬ MarksRange e.2 := by
  rw [ofFields_of_forall_not_isRefused (not_isRefused_of_ofFields h), Except.ok.injEq] at h
  rw [← h] at he
  rcases List.mem_append.mp (mem_of_mem_firstOfEach he) with hmem | hmem
  · obtain ⟨f, -, hf⟩ := List.mem_filterMap.mp hmem
    exact (forwardPair?_eq_some_iff.mp hf).2
  · obtain ⟨f, -, hf⟩ := List.mem_filterMap.mp hmem
    exact (reversePair?_eq_some_iff.mp hf).2.1

/-- **What a table is read from.** Fields whose names are not too long are refused exactly if one of
them goes to a name of a kind from something that looks like a tag and is no numeral. Otherwise the
table gives every integer the name that the fields call it, or says that it is unknown, it holds
those that are called something, and none of its names marks a range. -/
theorem ofFields_of_short (hshort : ∀ f ∈ fields, f.1.length ≤ Text.maxDigits) :
    (∀ fault, ofFields fields = .error fault ↔
      fault = .badNumeral ∧ ∃ f ∈ fields, IsFaulty f) ∧
    ∀ table, ofFields fields = .ok table →
      (∀ tag : Int, ∃ name?, (∀ other?, Calls fields tag other? ↔ other? = name?) ∧
        table.nameOf (.int tag) = .ok (some (name?.getD unknownName)) ∧
        table.holds (.int tag) = .ok name?.isSome) ∧
      ∀ e ∈ table.entries, ¬ MarksRange e.2 := by
  refine ⟨fun fault => ?_, fun table htable => ⟨fun tag => ?_, fun e => ?_⟩⟩
  · have hfaulty : (∃ f ∈ fields, IsFaulty f) ↔ ∃ f ∈ fields, IsRefused f :=
      exists_congr fun f => and_congr_right fun hf => isFaulty_iff_isRefused (hshort f hf)
    rw [hfaulty]
    exact ofFields_eq_error_iff
  · have hcalls := calls_of_ofFields htable tag
    exact ⟨table.find? tag, fun _ => ⟨fun h => h.unique hcalls, fun h => h ▸ hcalls⟩, rfl, rfl⟩
  · exact not_marksRange_of_ofFields htable

/-- The field from name to tag counts although it stands behind one from tag to name and behind a
range marker, a tag may have zeros in front, and what looks like a tag is refused only in front of a
name of a kind. -/
theorem ofFields_of_short_mixed :
    let fields : Fields := [("FirstKeyword", .int 5), ("-007", .str "Left"), ("5", .str "Other"),
      ("Five", .int 5), ("flag", .bool true), ("--5", .str "LastKeyword")]
    (∃ table, ofFields fields = .ok table ∧ table.nameOf (.int 5) = .ok (some "Five") ∧
      table.nameOf (.int (-7)) = .ok (some "Left") ∧ table.holds (.int 1) = .ok false) ∧
    ofFields (fields ++ [("--5", .str "Minus")]) = .error .badNumeral := by
  intro fields
  constructor
  · have htable : ofFields fields = .ok ⟨[(5, "Five"), (-7, "Left")]⟩ := by rfl
    have hshort : ∀ f ∈ fields, f.1.length ≤ Text.maxDigits := by decide
    obtain ⟨hcalled, -⟩ := (ofFields_of_short hshort).2 _ htable
    refine ⟨_, htable, ?_, ?_, ?_⟩
    · obtain ⟨name?, hunique, hname, -⟩ := hcalled 5
      have hfive : Calls fields 5 (some "Five") := .forward
        ⟨fields.take 3, fields.drop 4, rfl, by decide +kernel, by decide +kernel⟩
      rwa [← (hunique _).mp hfive] at hname
    · obtain ⟨name?, hunique, hname, -⟩ := hcalled (-7)
      rwa [← (hunique _).mp (calls_of_ofFields htable (-7))] at hname
    · obtain ⟨name?, hunique, -, hholds⟩ := hcalled 1
      rwa [← (hunique _).mp (calls_of_ofFields htable 1)] at hholds
  · have hshort : ∀ f ∈ fields ++ [("--5", .str "Minus")], f.1.length ≤ Text.maxDigits := by
      decide
    refine ((ofFields_of_short hshort).1 .badNumeral).mpr
      ⟨rfl, _, List.mem_append_right _ (List.mem_singleton_self _), ?_⟩
    exact (isFaulty_iff_isRefused (by decide)).mpr
      ⟨"Minus", rfl, by decide +kernel, isTag_iff.mp (by decide +kernel), by decide +kernel⟩

end DeclCatalogue.KindTable
