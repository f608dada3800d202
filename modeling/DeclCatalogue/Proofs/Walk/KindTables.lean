import DeclCatalogue.Extraction
import DeclCatalogue.Proofs.Node.KindNames
import DeclCatalogue.Proofs.Node.NormalForm
import DeclCatalogue.Proofs.Walk.NamedKinds
import DeclCatalogue.Proofs.Walk.Session

/-!
# The table that is supplied

A walk is given a kind table, or the settings name a file that holds one (`World.Supplies`). With a
table that has entries no other one is asked: `World.walkTree_supplied` says what becomes of the
numbers that stand for kinds, in recorded nodes and in lists of statements, and that a walk depends
on them only through their names.

A table without entries counts as no table where a kind is named, and the standard one stands in for
it (`walkTree_supplied_empty`).
-/

namespace DeclCatalogue

open Json (lookup find? setField)

namespace KindTable

/-- A table with entries is asked itself. -/
theorem orStandard_of_ne {table : KindTable} (h : table.entries ≠ []) :
    table.orStandard = table := by
  unfold orStandard
  rw [if_neg (by simpa using h)]

/-- Whatever stands in for a table stands in for itself. -/
theorem orStandard_orStandard (table : KindTable) :
    table.orStandard.orStandard = table.orStandard := by
  by_cases h : table.entries = []
  · have hempty : table.orStandard = standard := by
      unfold orStandard
      rw [if_pos (by simpa using h)]
    rw [hempty]
    rfl
  · rw [orStandard_of_ne h, orStandard_of_ne h]

theorem kindName_orStandard (table : KindTable) (v : Json) :
    table.orStandard.kindName v = table.kindName v := by
  cases v with
  | obj fields => rw [kindName, kindName, orStandard_orStandard]
  | _ => rfl

end KindTable

/-! ## Recorded nodes -/

/-- Setting a field leaves what is at the end of paths that do not start with it. -/
theorem Json.at?_setField {key : String} {value : Json} {fields : Fields} {path : Json.Path}
    (hne : path ≠ []) (hkey : path.head? ≠ some (.field key)) :
    (Json.obj (setField key value fields)).at? path = (Json.obj fields).at? path := by
  cases path with
  | nil => exact absurd rfl hne
  | cons step rest =>
    cases step with
    | item i => rfl
    | field other =>
      have hother : other ≠ key := fun heq => hkey (by rw [heq]; rfl)
      rw [Json.at?, Json.at?]
      show (find? other _).bind _ = (find? other _).bind _
      rw [Json.find?_setField_of_ne hother]

/-- What stands for the kind of an object in a stripped value, if the kind was a number: the name
that the table gives it, in the same place. -/
theorem Node.at?_kind_of_strip {kinds : KindTable} {v w : Json} (h : strip kinds v = .ok w)
    {path : Json.Path} {fields : Fields} {tag : Int} (hpath : path.Avoids isRewritten)
    (hplace : v.at? path = some (.obj fields))
    (htag : KindTable.tagOf (lookup "kind" fields) = .ok tag) :
    w.at? (path ++ [.field "kind"]) =
      some (.str ((kinds.orStandard.find? tag).getD KindTable.unknownName)) := by
  obtain ⟨there, hthere, hstripped⟩ : ∃ there, w.at? path = some there ∧
      strip kinds (.obj fields) = .ok there := by
    have hrel := Json.at?_rel (fun step hv hstep => child?_strip step hv hstep) h hpath
    rw [hplace] at hrel
    revert hrel
    generalize w.at? path = found
    rintro (hboth | _)
    exact ⟨_, rfl, hboth⟩
  obtain ⟨_, named, -, -, rfl⟩ := strip_obj_ok hstripped
  obtain ⟨name, hname, hkind⟩ := strip_kind hstripped
  rw [kindName_of_tagOf kinds htag] at hname
  rw [← Except.ok.inj hname] at hkind
  rcases find?_eq_none_or_some "kind" named with ⟨-, hnull⟩ | hfind
  · rw [hnull] at hkind
    cases hkind
  · rw [Json.at?_append, hthere]
    show (find? "kind" named).bind _ = _
    rw [hfind, hkind]
    rfl

/-- In the node of a record every kind that was a number is called what a table calls it, unknown if
the table does not have it: in every place of the node that the record was made from, except below
what a record drops or replaces. -/
def Declaration.CallsKinds (record : Declaration) (table : KindTable) (node : Json) : Prop :=
  ∀ (path : Json.Path) (fields : Fields) (tag : Int), path.Avoids Node.isRewritten →
    path.head? ≠ some (.field "name") → node.at? path = some (.obj fields) →
    KindTable.tagOf (lookup "kind" fields) = .ok tag →
      (Json.obj record.node).at? (path ++ [.field "kind"]) =
        some (.str ((table.find? tag).getD KindTable.unknownName))

/-- The kinds in the node of a record are named by the table that the node was stripped with. -/
theorem Declaration.IsRecordOf.callsKinds {record : Declaration} {kinds : KindTable}
    {heading : Heading} {node : Json} (h : record.IsRecordOf kinds heading node) :
    record.CallsKinds kinds.orStandard node := by
  intro path fields tag hpath hhead hplace htag
  obtain ⟨out, hstrip, hnode⟩ := h.stripped
  -- the name that is set is not on the path
  have hstart : (path ++ [Json.Step.field "kind"]).head? ≠ some (.field "name") := by
    cases path with
    | nil => decide
    | cons step rest => exact hhead
  rw [hnode, Json.at?_setField (by simp) hstart]
  exact Node.at?_kind_of_strip hstrip hpath hplace htag

namespace Walker

variable {w : Walker}

/-! ## Statements of an unknown kind -/

/-- A statement whose kind stands for a tag that the table does not have is passed over, and the
walk goes on behind it. -/
theorem statements_unknown {fields : Fields} {tag : Int}
    (htag : KindTable.tagOf (lookup "kind" fields) = .ok tag)
    (hunknown : w.kinds.orStandard.contains tag = false) (context : Json)
    (before after : List Json) :
    w.statements context (before ++ .obj fields :: after) = (do
      w.statements context before
      skip (some KindTable.unknownName) context
      w.statements context after) := by
  have hnone : w.kinds.orStandard.find? tag = none := by
    simpa [KindTable.contains] using hunknown
  have hname : w.kinds.kindName (.obj fields) = .ok (some KindTable.unknownName) := by
    rw [Node.kindName_of_tagOf w.kinds htag, hnone]
    rfl
  have hstatement : w.statement context (.obj fields) =
      skip (some KindTable.unknownName) context := by
    rw [statement_obj, hname, Walk.ofExcept_ok, pure_bind]
    rfl
  rw [statements_append, statements, hstatement]

/-! ## Walks by two tables -/

/-- Values whose kinds are called the same, each by its table, and whose identifiers have the same
texts. -/
def CalledAlike (first second : KindTable) (u v : Json) : Prop :=
  Node.nameKinds first u = Node.nameKinds second v ∧ Node.SameTexts u v

namespace CalledAlike

variable {first second : KindTable}

theorem lookup {f g : Fields} (h : CalledAlike first second (.obj f) (.obj g)) {key : String}
    (hkey : key ≠ "kind") : CalledAlike first second (lookup key f) (lookup key g) :=
  ⟨Node.nameKinds_lookup h.1 hkey, h.2.lookup key⟩

theorem truthy {u v : Json} (h : CalledAlike first second u v) : u.truthy = v.truthy :=
  calc u.truthy = (Node.nameKinds first u).truthy := (Node.truthy_nameKindsAt u).symm
    _ = (Node.nameKinds second v).truthy := by rw [h.1]
    _ = v.truthy := Node.truthy_nameKindsAt v

theorem flagsOf_eq {u v : Json} (h : CalledAlike first second u v) : flagsOf u = flagsOf v :=
  calc flagsOf u = flagsOf (Node.nameKinds first u) := (flagsOf_nameKindsAt u).symm
    _ = flagsOf (Node.nameKinds second v) := by rw [h.1]
    _ = flagsOf v := flagsOf_nameKindsAt v

theorem items {us vs : List Json} (h : CalledAlike first second (.arr us) (.arr vs)) :
    List.Forall₂ (CalledAlike first second) us vs := by
  obtain ⟨hnames, htexts⟩ := h
  rw [Node.nameKinds_arr, Node.nameKinds_arr] at hnames
  have hmaps := Json.arr.inj hnames
  have hlength : us.length = vs.length := by simpa using congrArg List.length hmaps
  refine List.forall₂_iff_get.mpr ⟨hlength, fun i hu hv => ⟨?_, ?_⟩⟩
  · have hi := List.getElem_of_eq hmaps (i := i) (by simpa using hu)
    simpa using hi
  · exact htexts.child (.item i) (List.getElem?_eq_getElem hu) (List.getElem?_eq_getElem hv)

/-- Values that are called alike have in common what a walk reads of them. -/
theorem agree {u v : Json} (h : CalledAlike first second u v) :
    Agree first second (CalledAlike first second) u v := by
  have hnames := h.1
  cases u with
  | obj f =>
    rw [Node.nameKinds_obj] at hnames
    obtain ⟨g, rfl⟩ := Node.eq_obj_of_nameKinds hnames.symm
    have hbody : CalledAlike first second (Json.lookup "body" f) (Json.lookup "body" g) :=
      h.lookup (by decide)
    exact .object
      { kind := Node.kindName_eq_of_nameKinds h.1
        stripped := Node.strip_eq_of_nameKinds h.1
        name := (h.2.lookup "name").identifierText_eq
        flags := (h.lookup (by decide)).flagsOf_eq
        present := hbody.truthy
        bodyKind := Node.kindName_eq_of_nameKinds hbody.1
        body := hbody
        statements := h.lookup (by decide) }
  | arr us =>
    rw [Node.nameKinds_arr] at hnames
    obtain ⟨vs, rfl⟩ := Node.eq_arr_of_nameKinds hnames.symm
    exact .list h.items
  | _ =>
    rw [Node.nameKinds_of_isKey rfl] at hnames
    obtain rfl := Node.eq_of_nameKinds_isKey hnames.symm rfl
    exact .primitive rfl

end CalledAlike

/-- **A walk depends on numbers only through the names that its table gives them.** Values that are
called alike, each by its own table, are walked to the same end. -/
theorem walk_calledAlike {kinds : KindTable} {tree tree' : Json}
    (h : CalledAlike w.kinds kinds tree tree') (context : Option Json) :
    (w.walk tree context).withoutNode = ((w.withKinds kinds).walk tree' context).withoutNode :=
  walkAs_agree CalledAlike.agree h _ .tree

end Walker

namespace World

/-- The table that a walk is given, or else the one in the file that the settings name. -/
def Supplies (world : World) (settings : Settings) (given : Option KindTable) (table : KindTable) :
    Prop :=
  given = some table ∨ given = none ∧ ∃ path, settings.kindTablePath = some path ∧ path ≠ "" ∧
    KindTable.load world.files path = .ok table

variable {world : World} {settings : Settings} {given : Option KindTable} {table : KindTable}

/-- The table that is supplied is the one that the walk is given. -/
theorem Supplies.walkTree_eq (h : world.Supplies settings given table) (tree : Json)
    (context : Option Json) :
    world.walkTree settings given tree context =
      (settings.walker table world.tokens).walk tree context := by
  unfold walkTree
  rcases h with rfl | ⟨rfl, path, hpath, hne, hload⟩
  · rfl
  · have htable : settings.kindTable world.files = .ok table := by
      unfold Settings.kindTable
      rw [hpath]
      dsimp only
      rw [if_neg hne, hload]
    dsimp only
    rw [htable]
    rfl

/-- **With a table that has entries no other one is asked.** Let a table be supplied, as one that is
given or in a file that the settings name. The walk is that of a walker with this table.

If it has entries, every declaration that a walk pushes is a record of a statement of the tree in
whose node each number that stood for a kind is replaced by what this table calls it, unknown if the
table does not have it; and in any list of statements that is walked, a statement whose kind stands
for a number that the table does not have is passed over, with a log entry that calls it unknown. If
it has none, the standard table stands in for it.

A walk depends on the numbers only through their names. Take any other table with a tree of its own.
If the trees are equal once the kinds in each are named by its table, and their identifiers have the
same texts, then the two walks have the same events, draw the same tokens, and end well or with a
fault of the same cause. -/
theorem walkTree_supplied (h : world.Supplies settings given table) (tree : Json)
    (context : Option Json) :
    world.walkTree settings given tree context =
      (settings.walker table world.tokens).walk tree context ∧
    (table.entries ≠ [] →
      (∀ drawn heading record key, .declaration heading record key ∈
          Event.pushes (world.walkTree settings given tree context drawn).events →
        ∃ node, (settings.walker table world.tokens).Statement tree heading node ∧
          record.IsRecordOf table heading node ∧ record.CallsKinds table node) ∧
      ∀ fields tag, KindTable.tagOf (lookup "kind" fields) = .ok tag →
        table.contains tag = false → ∀ inner before after,
          (settings.walker table world.tokens).statements inner (before ++ .obj fields :: after) = (do
            (settings.walker table world.tokens).statements inner before
            Walker.skip (some KindTable.unknownName) inner
            (settings.walker table world.tokens).statements inner after)) ∧
    (table.entries = [] →
      (world.walkTree settings given tree context).withoutNode =
        (world.walkTree settings (some .standard) tree context).withoutNode) ∧
    ∀ given' table' tree', world.Supplies settings given' table' →
      Node.nameKinds table tree = Node.nameKinds table' tree' → Node.SameTexts tree tree' →
        (world.walkTree settings given tree context).withoutNode =
          (world.walkTree settings given' tree' context).withoutNode := by
  have hnamed : ∀ given' table' tree', world.Supplies settings given' table' →
      Node.nameKinds table tree = Node.nameKinds table' tree' → Node.SameTexts tree tree' →
        (world.walkTree settings given tree context).withoutNode =
          (world.walkTree settings given' tree' context).withoutNode := by
    intro given' table' tree' h' hnames htexts
    rw [h.walkTree_eq, h'.walkTree_eq]
    exact Walker.walk_calledAlike (w := settings.walker table world.tokens) ⟨hnames, htexts⟩ context
  refine ⟨h.walkTree_eq tree context, fun hentries => ⟨?_, ?_⟩, fun hempty => ?_, hnamed⟩
  · intro drawn heading record key hpush
    rw [h.walkTree_eq] at hpush
    obtain ⟨-, node, hgives, hrecord⟩ :=
      ((settings.walker table world.tokens).perform_ensures (.walk tree context) drawn).1 _
        (Walker.mem_pushes hpush) heading record key rfl
    cases hgives with
    | walked _ hreaches hkind =>
      refine ⟨node, ⟨hreaches, hkind⟩, hrecord, ?_⟩
      have hcalls := hrecord.callsKinds
      rwa [show (settings.walker table world.tokens).kinds = table from rfl,
        KindTable.orStandard_of_ne hentries] at hcalls
  · intro fields tag htag hunknown inner before after
    refine Walker.statements_unknown htag ?_ inner before after
    rwa [show (settings.walker table world.tokens).kinds = table from rfl,
      KindTable.orStandard_of_ne hentries]
  · have hstandard : KindTable.standard = table.orStandard := by
      unfold KindTable.orStandard
      rw [if_pos (by simpa using hempty)]
    refine hnamed (some .standard) .standard tree (.inl rfl) ?_ (.refl tree)
    rw [hstandard]
    exact Node.nameKinds_congr (fun v => (table.kindName_orStandard v).symm) tree

/-- A table in a file, which has functions only, and a tree with a function whose modifier and whose
neighbour have kinds that the standard table knows. The modifier is called unknown and the neighbour
is passed over; another table that has functions under this number has them walked the same way. -/
theorem walkTree_supplied_file :
    let bytes := "\x7b\"2\": \"FunctionDeclaration\"\x7d".toUTF8
    let world : World := .ofParsed [] fun path =>
      if path = "kinds.json" then some (.file bytes) else none
    let settings : Settings := { Settings.standard with kindTablePath := some "kinds.json" }
    let table : KindTable := ⟨[(2, "FunctionDeclaration")]⟩
    let other : KindTable := ⟨[(7, "ClassDeclaration"), (2, "FunctionDeclaration")]⟩
    let neighbour : Fields := [("kind", .int 263), ("name", .obj [("text", .str "C")])]
    let function : Json := .obj [("kind", .int 2), ("name", .obj [("text", .str "f")]),
      ("modifiers", .arr [.obj [("kind", .int 95)]])]
    let tree : Json := .obj [("statements", .arr [.obj neighbour, function])]
    let record : Declaration := ⟨"root", .function, ⟨"f", by decide⟩, false,
      [("kind", .str "FunctionDeclaration"), ("name", .obj [("text", .str "f")]),
        ("modifiers", .arr [.obj [("kind", .str "Unknown")]])]⟩
    world.Supplies settings none table ∧ table.entries ≠ [] ∧
      .declaration .functions record (.str "root") ∈
        Event.pushes (world.walkTree settings none tree none 0).events ∧
      (∃ node, (settings.walker table world.tokens).Statement tree .functions node ∧
        record.IsRecordOf table .functions node ∧ record.CallsKinds table node) ∧
      (∀ inner, (settings.walker table world.tokens).statements inner
          ([] ++ .obj neighbour :: [function]) = (do
        (settings.walker table world.tokens).statements inner []
        Walker.skip (some KindTable.unknownName) inner
        (settings.walker table world.tokens).statements inner [function])) ∧
      (world.walkTree settings none tree none).withoutNode =
        (world.walkTree settings (some other) tree none).withoutNode := by
  intro bytes world settings table other neighbour function tree record
  have hread : (KindTable.load world.files "kinds.json").toOption = some table := by
    decide +kernel
  have hload : KindTable.load world.files "kinds.json" = .ok table := by
    revert hread
    cases KindTable.load world.files "kinds.json" with
    | error fault => exact fun h => by cases h
    | ok found => exact fun h => congrArg Except.ok (Option.some.inj h)
  have hsupplied : world.Supplies settings none table :=
    .inr ⟨rfl, "kinds.json", rfl, by decide, hload⟩
  have hpush : .declaration .functions record (.str "root") ∈
      Event.pushes (world.walkTree settings none tree none 0).events := by decide +kernel
  obtain ⟨-, hentries, -, hother⟩ := walkTree_supplied hsupplied tree none
  obtain ⟨hrecords, hunknown⟩ := hentries (by decide)
  refine ⟨hsupplied, by decide, hpush, hrecords 0 .functions record (.str "root") hpush, ?_, ?_⟩
  · exact fun inner => hunknown neighbour 263 rfl (by decide) inner [] [function]
  · exact hother (some other) other tree (.inl rfl) (by decide +kernel) (.refl tree)

/-- An empty table, as an object without entries describes it, is supplied. It does not have the
kind of a function, but the function is recorded as one. -/
theorem walkTree_supplied_empty :
    let world : World := .ofParsed [] fun _ => none
    let table : KindTable := ⟨[]⟩
    let tree : Json := .obj [("statements", .arr [.obj [("kind", .int 262),
      ("name", .obj [("text", .str "f")])]])]
    KindTable.ofFields [] = .ok table ∧ world.Supplies Settings.standard (some table) table ∧
      table.contains 262 = false ∧
      (world.walkTree Settings.standard (some table) tree none 0).events =
        [.pushed (.declaration .functions ⟨"root", .function, ⟨"f", by decide⟩, false,
          [("kind", .str "FunctionDeclaration"), ("name", .obj [("text", .str "f")])]⟩
            (.str "root"))] :=
  ⟨rfl, .inl rfl, rfl, by decide +kernel⟩

end World

end DeclCatalogue
