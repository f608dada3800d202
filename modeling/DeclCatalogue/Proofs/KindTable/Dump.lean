import DeclCatalogue.Proofs.KindTable.Reading

/-!
# Dumps of an enumeration

A compiler writes its enumeration of kinds as an object with a field from every name to its tag and,
for the tags that it likes, one from the tag to one of its names: of the names of a tag the one that
was written last stands there, which may be the marker of a range. `ofFields_dump` says that such a
dump is read back as the enumeration without its markers, in whatever order the fields stand and
whichever names the tags go to; and so is one that only has the fields from tags to their own names.

The order does not matter, since each field is a member of the enumeration, in one direction or the
other, and each name of a kind stands in one of them (`IsOf`): whatever field comes first for a tag
gives the one name that the tag has.

Numerals with more than `Text.maxDigits` digits are not read, so a dump with a field from such a tag
to its own name is refused: `ofFields_dump_long`.
-/

namespace DeclCatalogue.KindTable

/-- The members of an enumeration, names with their tags. A tag may have any number of range markers
beside its own name. -/
structure Enumeration where
  members : List (String × Int)
  distinct : (members.map (·.1)).Nodup
  named : ∀ m ∈ members, ∃! name, (name, m.2) ∈ members ∧ ¬ MarksRange name
  textual : ∀ m ∈ members, ¬ Text.LooksNumeric m.1

/-- The field from the name of a member to its tag. -/
def nameField (m : String × Int) : String × Json := (m.1, .int m.2)

/-- The field from the tag of a member, in decimal notation, to its name. -/
def tagField (m : String × Int) : String × Json := (toString m.2, .str m.1)

/-- The fields from tags to names of kinds have tags that are not too long to be read. -/
def IsReadable (fields : Fields) : Prop :=
  ∀ (tag : Int) (name : String), (toString tag, Json.str name) ∈ fields → ¬ MarksRange name →
    tag.natAbs < 10 ^ Text.maxDigits

theorem isReadable_of_short {fields : Fields} (h : ∀ f ∈ fields, f.1.length ≤ Text.maxDigits) :
    IsReadable fields :=
  fun _ _ hmem _ => Text.natAbs_lt_of_length_toString (h _ hmem)

namespace Enumeration

variable {e : Enumeration} {fields : Fields} {table : KindTable} {tag : Int} {name : String}

/-- A name is the one of a tag that marks no range. -/
def Names (e : Enumeration) (name : String) (tag : Int) : Prop :=
  (name, tag) ∈ e.members ∧ ¬ MarksRange name

/-- Fields are a dump of an enumeration: the members from name to tag and, for some tags, one member
from tag to name, in any order. -/
def IsDump (e : Enumeration) (fields : Fields) : Prop :=
  ∃ chosen : List (String × Int), (∀ m ∈ chosen, m ∈ e.members) ∧ (chosen.map (·.2)).Nodup ∧
    fields.Perm (e.members.map nameField ++ chosen.map tagField)

/-- Fields go from the tags of an enumeration to their own names, in any order. -/
def IsTagDump (e : Enumeration) (fields : Fields) : Prop :=
  fields.Perm ((e.members.filter fun m => ¬ MarksRange m.1).map tagField)

/-- Each field is a member of the enumeration in one direction or the other, and each name of a kind
stands in one of them. -/
structure IsOf (e : Enumeration) (fields : Fields) : Prop where
  each : ∀ f ∈ fields, ∃ m ∈ e.members, f = nameField m ∨ f = tagField m
  all : ∀ m ∈ e.members, ¬ MarksRange m.1 → nameField m ∈ fields ∨ tagField m ∈ fields

theorem Names.unique {other : String} (h : e.Names name tag) (h' : e.Names other tag) :
    name = other :=
  (e.named _ h.1).unique h h'

/-! ## What a dump is made of -/

theorem IsDump.isOf (h : e.IsDump fields) : e.IsOf fields := by
  obtain ⟨chosen, hchosen, -, hperm⟩ := h
  constructor
  · intro f hf
    rcases List.mem_append.mp (hperm.mem_iff.mp hf) with hmem | hmem
    · obtain ⟨m, hm, rfl⟩ := List.mem_map.mp hmem
      exact ⟨m, hm, .inl rfl⟩
    · obtain ⟨m, hm, rfl⟩ := List.mem_map.mp hmem
      exact ⟨m, hchosen m hm, .inr rfl⟩
  · intro m hm _
    exact .inl (hperm.mem_iff.mpr (List.mem_append_left _ (List.mem_map_of_mem hm)))

theorem IsTagDump.isOf (h : e.IsTagDump fields) : e.IsOf fields := by
  constructor
  · intro f hf
    obtain ⟨m, hm, rfl⟩ := List.mem_map.mp (h.mem_iff.mp hf)
    exact ⟨m, (List.mem_filter.mp hm).1, .inr rfl⟩
  · intro m hm hmarks
    have hkept : m ∈ e.members.filter fun m => ¬ MarksRange m.1 :=
      List.mem_filter.mpr ⟨hm, decide_eq_true hmarks⟩
    exact .inr (h.mem_iff.mpr (List.mem_map_of_mem hkept))

/-! ## Reading a dump -/

theorem IsOf.not_isRefused (h : e.IsOf fields) (hread : IsReadable fields) :
    ∀ f ∈ fields, ¬ IsRefused f := by
  rintro f hf ⟨name, hname, hmarks, -, hnone⟩
  obtain ⟨m, -, rfl | rfl⟩ := h.each f hf
  · cases hname
  · obtain rfl : m.1 = name := Json.str.inj hname
    cases hnone.symm.trans (Text.integer?_toString (hread m.2 m.1 hf hmarks))

/-- Whatever the fields call a tag is its name. -/
theorem IsOf.names_of_calls (h : e.IsOf fields) (hcalls : Calls fields tag (some name)) :
    e.Names name tag := by
  cases hcalls with
  | forward hfirst =>
    obtain ⟨m, hm, hf | hf⟩ := h.each _ hfirst.mem
    · obtain ⟨rfl, htag⟩ := Prod.mk.inj hf
      obtain rfl := Json.int.inj htag
      exact ⟨hm, hfirst.holds.2⟩
    · cases (Prod.mk.inj hf).2
  | reverse _ hfirst =>
    obtain ⟨hkey, written, hvalue, hmarks⟩ := hfirst.holds
    obtain rfl := Json.str.inj hvalue
    obtain ⟨m, hm, hf | hf⟩ := h.each _ hfirst.mem
    · cases (Prod.mk.inj hf).2
    · obtain ⟨rfl, hname⟩ := Prod.mk.inj hf
      obtain rfl := Json.str.inj hname
      rw [hkey.unique (Text.isInteger_toString m.2)]
      exact ⟨hm, hmarks⟩

/-- A tag with a name is called something. -/
theorem IsOf.not_calls_none (h : e.IsOf fields) (hnames : e.Names name tag) :
    ¬ Calls fields tag none := by
  rintro ⟨⟩
  next hto hfrom =>
    rcases h.all _ hnames.1 hnames.2 with hmem | hmem
    · exact hto _ hmem ⟨rfl, hnames.2⟩
    · exact hfrom _ hmem ⟨Text.isInteger_toString tag, name, rfl, hnames.2⟩

/-- The table that is read is the enumeration without its range markers. -/
theorem IsOf.find?_eq_some_iff (h : e.IsOf fields) (htable : ofFields fields = .ok table) :
    table.find? tag = some name ↔ e.Names name tag := by
  have hcalls := calls_of_ofFields htable tag
  constructor
  · intro hfind
    exact h.names_of_calls (hfind ▸ hcalls)
  · intro hnames
    cases hfind : table.find? tag with
    | none => exact absurd (hfind ▸ hcalls) (h.not_calls_none hnames)
    | some other =>
      rw [hfind] at hcalls
      rw [(h.names_of_calls hcalls).unique hnames]

/-- **A dump of an enumeration is read back whatever its order,** and so are the fields from the
tags to their own names alone, if no such field has a tag with too many digits: the table has
exactly the tags of the enumeration, each with the one name that marks no range. -/
theorem ofFields_dump (h : e.IsDump fields ∨ e.IsTagDump fields) (hread : IsReadable fields) :
    ∃ table, ofFields fields = .ok table ∧
      (∀ tag name, table.find? tag = some name ↔ (name, tag) ∈ e.members ∧ ¬ MarksRange name) ∧
      ∀ tag, table.contains tag = true ↔ ∃ m ∈ e.members, m.2 = tag := by
  have hof : e.IsOf fields := h.elim IsDump.isOf IsTagDump.isOf
  have htable := ofFields_of_forall_not_isRefused (hof.not_isRefused hread)
  refine ⟨_, htable, fun tag name => hof.find?_eq_some_iff htable, fun tag => ?_⟩
  rw [contains, Option.isSome_iff_exists]
  constructor
  · rintro ⟨name, hname⟩
    exact ⟨_, ((hof.find?_eq_some_iff htable).mp hname).1, rfl⟩
  · rintro ⟨m, hm, rfl⟩
    obtain ⟨name, hname, -⟩ := e.named m hm
    exact ⟨name, (hof.find?_eq_some_iff htable).mpr hname⟩

/-- Two tags, one of them negative, and three markers, of which two stand in the fields from tag to
name. -/
theorem ofFields_dump_markers :
    let members : List (String × Int) := [("FirstToken", -1), ("Unset", -1), ("Equals", 64),
      ("FirstAssignment", 64), ("LastToken", 64)]
    let fields : Fields := [("64", .str "FirstAssignment"), ("LastToken", .int 64),
      ("Unset", .int (-1)), ("FirstAssignment", .int 64), ("-1", .str "Unset"),
      ("Equals", .int 64), ("FirstToken", .int (-1))]
    ∃ e : Enumeration, e.members = members ∧ e.IsDump fields ∧ IsReadable fields ∧
      ∃ table, ofFields fields = .ok table ∧ table.find? 64 = some "Equals" ∧
        table.find? (-1) = some "Unset" ∧ table.contains 0 = false := by
  intro members fields
  have hnamed : ∀ m ∈ members, ∃! name, (name, m.2) ∈ members ∧ ¬ MarksRange name := by
    have hexists : ∀ m ∈ members, ∃ m' ∈ members, m'.2 = m.2 ∧ ¬ MarksRange m'.1 ∧
        ∀ n ∈ members, n.2 = m.2 → ¬ MarksRange n.1 → n.1 = m'.1 := by decide +kernel
    intro m hm
    obtain ⟨m', hm', htag, hmarks, hunique⟩ := hexists m hm
    exact ⟨m'.1, ⟨htag ▸ hm', hmarks⟩, fun name h => hunique (name, m.2) h.1 rfl h.2⟩
  have htextual : ∀ m ∈ members, ¬ Text.LooksNumeric m.1 := by
    simp only [← isTag_iff]
    decide +kernel
  let e : Enumeration := ⟨members, by decide, hnamed, htextual⟩
  let chosen : List (String × Int) := [("FirstAssignment", 64), ("Unset", -1)]
  have hchosen : ∀ m ∈ chosen, m ∈ members := by decide
  have hperm : fields.Perm (members.map nameField ++ chosen.map tagField) := by decide +kernel
  have hdump : e.IsDump fields := ⟨chosen, hchosen, by decide, hperm⟩
  have hread : IsReadable fields := isReadable_of_short (by decide)
  obtain ⟨table, htable, hfind, hcontains⟩ := ofFields_dump (.inl hdump) hread
  refine ⟨e, rfl, hdump, hread, table, htable, ?_, ?_, ?_⟩
  · have hmember : ("Equals", 64) ∈ members ∧ ¬ MarksRange "Equals" := by decide +kernel
    exact (hfind 64 "Equals").mpr hmember
  · have hmember : ("Unset", -1) ∈ members ∧ ¬ MarksRange "Unset" := by decide +kernel
    exact (hfind (-1) "Unset").mpr hmember
  · have hnone : ¬ ∃ m ∈ members, m.2 = 0 := by decide
    exact Bool.eq_false_iff.mpr fun h => hnone ((hcontains 0).mp h)

/-- A tag with one digit more than can be read: in either form the dump is refused. -/
theorem ofFields_dump_long :
    let tag : Int := 10 ^ Text.maxDigits
    let fields : Fields := [(toString tag, .str "Foo")]
    ∃ e : Enumeration, e.members = [("Foo", tag)] ∧
      (e.IsTagDump fields ∧ ofFields fields = .error .badNumeral) ∧
      e.IsDump (("Foo", .int tag) :: fields) ∧
        ofFields (("Foo", .int tag) :: fields) = .error .badNumeral := by
  intro tag fields
  have hfoo : ¬ MarksRange "Foo" := by decide +kernel
  have hnamed : ∀ m ∈ [("Foo", tag)], ∃! name,
      (name, m.2) ∈ [("Foo", tag)] ∧ ¬ MarksRange name := by
    refine List.forall_mem_singleton.mpr ⟨"Foo", ⟨List.mem_singleton_self _, hfoo⟩, ?_⟩
    exact fun name h => (Prod.mk.inj (List.mem_singleton.mp h.1)).1
  have htextual : ∀ m ∈ [("Foo", tag)], ¬ Text.LooksNumeric m.1 := by
    simp only [List.forall_mem_singleton, ← isTag_iff]
    decide +kernel
  -- the field from the tag is refused
  have hlong : Text.integer? (toString tag).toList = none :=
    Text.integer?_toString_ten_pow (Nat.le_refl _)
  have hrefused : IsRefused (toString tag, .str "Foo") :=
    ⟨"Foo", rfl, hfoo, (Text.isInteger_toString tag).looksNumeric, hlong⟩
  have hfilter : [("Foo", tag)].filter (fun m => ¬ MarksRange m.1) = [("Foo", tag)] :=
    List.filter_cons_of_pos (by simpa using hfoo)
  refine ⟨⟨[("Foo", tag)], List.nodup_singleton _, hnamed, htextual⟩, rfl, ⟨?_, ?_⟩,
    ⟨[("Foo", tag)], fun _ h => h, List.nodup_singleton _, .refl _⟩, ?_⟩
  · rw [IsTagDump, hfilter]
    exact .refl _
  · exact ofFields_of_isRefused ⟨_, List.mem_cons_self .., hrefused⟩
  · exact ofFields_of_isRefused ⟨_, List.mem_cons_of_mem _ (List.mem_cons_self ..), hrefused⟩

end Enumeration

end DeclCatalogue.KindTable
