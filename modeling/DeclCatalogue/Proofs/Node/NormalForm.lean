import DeclCatalogue.Json.Reader
import DeclCatalogue.Proofs.Fault
import DeclCatalogue.Proofs.Json.Keys
import DeclCatalogue.Proofs.Json.Paths
import DeclCatalogue.Proofs.Node.Strip

/-!
# Stripped nodes as a normal form

A stripped node is told from the node it was made of by two things only: bookkeeping is gone, and
kinds are names. `StripsTo` says so of the top of a value, and `strip_normalForm` of every place in
it that no bookkeeping and no kind stands above. Stripping again, with whatever table, changes
nothing any more.

Stripping can be refused, and the reason is always a kind. Bookkeeping is dropped before it is
looked at, so the kinds that count are those of the objects that are not below any: `Retains`.
`kindFault?` tells which kinds have no name: lists and objects, and numbers without an integer part.
An object that counts has one of them exactly if stripping is refused (`strip_error`,
`kindName_of_retains`). A document can hold such a number, since the reader takes a numeral that is
too large for infinity (`strip_infiniteKind`).
-/

namespace DeclCatalogue

namespace Node

open Json (lookup find? setField keys EachObject Path)

/-! ## The objects that count -/

/-- `Retains v o`: the object `o` is `v` or lies in it, and not below bookkeeping. -/
inductive Retains : Json → Fields → Prop where
  | self (fields : Fields) : Retains (.obj fields) fields
  | item {vs : List Json} {v : Json} {o : Fields} : v ∈ vs → Retains v o → Retains (.arr vs) o
  | field {fields : Fields} {key : String} {v : Json} {o : Fields} :
      isBookkeeping key = false → (key, v) ∈ fields → Retains v o → Retains (.obj fields) o

/-- What is wrong with a kind that has no name: it is a list or an object, or a number that is
infinite or that stands for no number. -/
def kindFault? : Json → Option Fault
  | .arr _ | .obj _ => some .kindNotNumeric
  | .real x =>
    match x.value with
    | .infinite _ => some .kindInfinite
    | .notANumber => some .kindNotANumber
    | .finite .. => none
  | _ => none

section Refusal

variable {table : KindTable} {fault : Fault}

theorem stripItems_error {vs : List Json} (h : stripItems table vs = .error fault) :
    ∃ v ∈ vs, strip table v = .error fault := by
  induction vs with
  | nil => cases h
  | cons v rest ih =>
    rw [stripItems] at h
    rcases Fault.bind_eq_error.mp h with hv | ⟨v', -, h⟩
    · exact ⟨v, List.mem_cons_self .., hv⟩
    rcases Fault.bind_eq_error.mp h with hrest | ⟨rest', -, h⟩
    · obtain ⟨u, hu, hrefused⟩ := ih hrest
      exact ⟨u, List.mem_cons_of_mem _ hu, hrefused⟩
    · cases h

theorem stripFields_error {fields : Fields} (h : stripFields table fields = .error fault) :
    ∃ f ∈ fields, isBookkeeping f.1 = false ∧ strip table f.2 = .error fault := by
  induction fields with
  | nil => cases h
  | cons f rest ih =>
    obtain ⟨key, v⟩ := f
    have hlater : stripFields table rest = .error fault →
        ∃ f ∈ (key, v) :: rest, isBookkeeping f.1 = false ∧ strip table f.2 = .error fault := by
      intro hrest
      obtain ⟨g, hg, hrefused⟩ := ih hrest
      exact ⟨g, List.mem_cons_of_mem _ hg, hrefused⟩
    by_cases hkey : isBookkeeping key = true
    · rw [stripFields_cons_of_bookkeeping hkey] at h
      exact hlater h
    · rw [stripFields, if_neg hkey] at h
      rcases Fault.bind_eq_error.mp h with hv | ⟨v', -, h⟩
      · exact ⟨(key, v), List.mem_cons_self .., by simpa using hkey, hv⟩
      rcases Fault.bind_eq_error.mp h with hrest | ⟨rest', -, h⟩
      · exact hlater hrest
      · cases h

/-- Naming the kind of what is kept of an object is refused as naming its kind is. -/
theorem nameKind_error {fields kept : Fields} (hkept : stripFields table fields = .ok kept)
    (h : nameKind table kept = .error fault) : table.kindName (.obj fields) = .error fault := by
  rw [KindTable.kindName, ← nameOf_strip (lookup_stripFields isBookkeeping_kind hkept)]
  unfold nameKind at h
  rcases find?_eq_none_or_some "kind" kept with ⟨hnone, -⟩ | hfound
  · rw [hnone] at h
    cases h
  · rw [hfound] at h
    exact Fault.map_eq_error.mp h

/-- **Stripping is refused for a kind.** The fault is that of naming the kind of an object that
counts. -/
theorem strip_error (v : Json) (h : strip table v = .error fault) :
    ∃ o, Retains v o ∧ table.kindName (.obj o) = .error fault := by
  induction v using Json.induct with
  | arr vs ih =>
    rw [strip] at h
    obtain ⟨v, hv, hrefused⟩ := stripItems_error (Fault.map_eq_error.mp h)
    obtain ⟨o, ho, hkind⟩ := ih v hv hrefused
    exact ⟨o, .item hv ho, hkind⟩
  | obj fields ih =>
    rw [strip] at h
    rcases Fault.bind_eq_error.mp h with hfields | ⟨kept, hkept, h⟩
    · obtain ⟨f, hf, hkey, hrefused⟩ := stripFields_error hfields
      obtain ⟨o, ho, hkind⟩ := ih f hf hrefused
      exact ⟨o, .field hkey hf ho, hkind⟩
    rcases Fault.bind_eq_error.mp h with hkind | ⟨named, -, h⟩
    · exact ⟨fields, .self fields, nameKind_error hkept hkind⟩
    · cases h
  | _ => cases h

theorem strip_of_mem_items {vs ws : List Json} (h : stripItems table vs = .ok ws) {v : Json}
    (hv : v ∈ vs) : ∃ w, strip table v = .ok w := by
  have hitems := forall₂_stripItems h
  clear h
  induction hitems with
  | nil => cases hv
  | cons hfirst _ ih =>
    rcases List.mem_cons.mp hv with rfl | hv
    · exact ⟨_, hfirst⟩
    · exact ih hv

theorem strip_of_mem_fields {fields kept : Fields} (h : stripFields table fields = .ok kept)
    {f : String × Json} (hf : f ∈ fields) (hkey : isBookkeeping f.1 = false) :
    ∃ w, strip table f.2 = .ok w := by
  induction fields generalizing kept with
  | nil => cases hf
  | cons g rest ih =>
    obtain ⟨key, v⟩ := g
    by_cases hbook : isBookkeeping key = true
    · rw [stripFields_cons_of_bookkeeping hbook] at h
      rcases List.mem_cons.mp hf with rfl | hf
      · rw [hkey] at hbook
        cases hbook
      · exact ih h hf
    · obtain ⟨v', rest', hv, hrest, -⟩ := stripFields_cons_ok (by simpa using hbook) h
      rcases List.mem_cons.mp hf with rfl | hf
      · exact ⟨v', hv⟩
      · exact ih hrest hf

/-- **Where stripping succeeds, every object that counts has a kind that can be named.** -/
theorem kindName_of_retains {v : Json} {o : Fields} (ho : Retains v o) :
    ∀ {w : Json}, strip table v = .ok w → ∃ name, table.kindName (.obj o) = .ok name := by
  induction ho with
  | self fields =>
    intro w h
    obtain ⟨_, out, -, -, rfl⟩ := strip_obj_ok h
    obtain ⟨name, hname, -⟩ := strip_kind h
    exact ⟨name, hname⟩
  | item hv _ ih =>
    intro w h
    obtain ⟨ws, hws, -⟩ := strip_arr_ok h
    obtain ⟨u, hu⟩ := strip_of_mem_items hws hv
    exact ih hu
  | field hkey hv _ ih =>
    intro w h
    obtain ⟨kept, _, hkept, -, -⟩ := strip_obj_ok h
    obtain ⟨u, hu⟩ := strip_of_mem_fields hkept hv hkey
    exact ih hu

end Refusal

/-- Naming a kind is refused for what is wrong with the kind, whatever the table. -/
theorem kindName_error_iff {table : KindTable} {fields : Fields} {fault : Fault} :
    table.kindName (.obj fields) = .error fault ↔
      kindFault? (lookup "kind" fields) = some fault := by
  rw [KindTable.kindName]
  cases lookup "kind" fields with
  | real x =>
    show (KindTable.tagOf (.real x)).map _ = .error fault ↔ _
    rw [Fault.map_eq_error, KindTable.tagOf, Binary64.truncate, Binary64.isNaN, kindFault?]
    cases x.value <;> simp
  | arr vs => exact ⟨fun h => congrArg some (Except.error.inj h), fun h => by cases h; rfl⟩
  | obj fs => exact ⟨fun h => congrArg some (Except.error.inj h), fun h => by cases h; rfl⟩
  | _ => exact ⟨fun h => (by cases h), fun h => by cases h⟩

/-! ## What is left -/

/-- `StripsTo table v w`: at its top `w` is what is left of `v`. A list keeps its length and an
object its fields in order, except for bookkeeping; its kind is the name of its kind. Anything else
is left alone. -/
inductive StripsTo (table : KindTable) : Json → Json → Prop where
  | primitive {v : Json} : v.isKey = true → StripsTo table v v
  | list {vs ws : List Json} : ws.length = vs.length → StripsTo table (.arr vs) (.arr ws)
  | object {fields out : Fields} {name : Option String} :
      keys out = (keys fields).filter (fun key => !isBookkeeping key) →
      table.kindName (.obj fields) = .ok name → lookup "kind" out = Json.ofText? name →
      StripsTo table (.obj fields) (.obj out)

/-- Whether what stands under a name is dropped or replaced. -/
def isRewritten (key : String) : Bool :=
  isBookkeeping key || key = "kind"

section Shape

variable {table : KindTable}

theorem keys_stripFields {fields kept : Fields} (h : stripFields table fields = .ok kept) :
    keys kept = (keys fields).filter fun key => !isBookkeeping key := by
  induction fields generalizing kept with
  | nil =>
    obtain rfl : [] = kept := Except.ok.inj h
    rfl
  | cons f rest ih =>
    obtain ⟨key, v⟩ := f
    show _ = (key :: keys rest).filter _
    by_cases hkey : isBookkeeping key = true
    · rw [stripFields_cons_of_bookkeeping hkey] at h
      rw [ih h, List.filter_cons_of_neg (by simp [hkey])]
    · obtain ⟨v', rest', -, hrest, rfl⟩ := stripFields_cons_ok (by simpa using hkey) h
      rw [List.filter_cons_of_pos (by simpa using hkey), ← ih hrest]
      rfl

theorem keys_nameKind {kept named : Fields} (h : nameKind table kept = .ok named) :
    keys named = keys kept := by
  unfold nameKind at h
  cases hfound : find? "kind" kept with
  | none =>
    rw [hfound] at h
    rw [Except.ok.inj h]
  | some kind =>
    have hmem : "kind" ∈ keys kept := List.mem_map_of_mem (Json.mem_of_find? hfound)
    rw [hfound] at h
    cases hname : table.orStandard.nameOf kind with
    | error fault =>
      simp only [hname] at h
      cases h
    | ok name =>
      simp only [hname] at h
      rw [← Except.ok.inj h, Json.keys_setField, if_pos hmem]

theorem stripsTo_of_strip {v w : Json} (h : strip table v = .ok w) : StripsTo table v w := by
  cases v with
  | arr vs =>
    obtain ⟨ws, hws, rfl⟩ := strip_arr_ok h
    exact .list (forall₂_stripItems hws).length_eq.symm
  | obj fields =>
    obtain ⟨kept, out, hkept, hnamed, rfl⟩ := strip_obj_ok h
    obtain ⟨name, hname, hkind⟩ := strip_kind h
    exact .object ((keys_nameKind hnamed).trans (keys_stripFields hkept)) hname hkind
  | _ =>
    obtain rfl := Except.ok.inj h
    exact .primitive rfl

/-- What is one step below a value is stripped when the value is, unless it is dropped or
renamed. -/
theorem child?_strip {v w : Json} (step : Json.Step) (h : strip table v = .ok w)
    (hstep : ∀ key, step = .field key → isRewritten key = false) :
    Option.Rel (fun u x => strip table u = .ok x) (v.child? step) (w.child? step) := by
  cases v with
  | arr vs =>
    obtain ⟨ws, hws, rfl⟩ := strip_arr_ok h
    cases step with
    | item i => exact Json.getElem?_rel (forall₂_stripItems hws) i
    | field key => exact .none
  | obj fields =>
    obtain ⟨kept, out, hkept, hnamed, rfl⟩ := strip_obj_ok h
    cases step with
    | item i => exact .none
    | field key =>
      have hkey := hstep key rfl
      simp only [isRewritten, Bool.or_eq_false_iff, decide_eq_false_iff_not] at hkey
      have hsame : find? key out = find? key kept := by
        obtain ⟨name, -, -, rfl | rfl⟩ := nameKind_ok hnamed
        · rfl
        · exact Json.find?_setField_of_ne hkey.2 _ _
      show Option.Rel _ (find? key fields) (find? key out)
      rw [hsame]
      exact find?_stripFields hkey.1 hkept
  | _ =>
    obtain rfl := Except.ok.inj h
    cases step <;> exact .none

end Shape

/-- **Stripping gives a normal form.** A value is refused exactly if something is wrong with the
kind of one of its objects that is not below bookkeeping, and always for what is wrong with such a
kind.

If a value is not refused, no object in the result has bookkeeping, and the kind of each is a name
or null. In every place that is not below bookkeeping and not below a kind, the result has what the
value has: a list of the same length, an object with the same fields in the same order except for
bookkeeping, so with a kind if and only if it had one, or the same text, number, truth value or
null. Stripping the result again, also with another table, gives the result. -/
theorem strip_normalForm (first second : KindTable) (v : Json) :
    ((∃ fault, strip first v = .error fault) ↔
      ∃ o, Retains v o ∧ kindFault? (lookup "kind" o) ≠ none) ∧
    (∀ fault, strip first v = .error fault →
      ∃ o, Retains v o ∧ kindFault? (lookup "kind" o) = some fault) ∧
    ∀ w, strip first v = .ok w →
      w.EachObject IsClean ∧
      (∀ path : Path, path.Avoids isRewritten →
        Option.Rel (StripsTo first) (v.at? path) (w.at? path)) ∧
      strip second w = .ok w := by
  have hreason : ∀ fault, strip first v = .error fault →
      ∃ o, Retains v o ∧ kindFault? (lookup "kind" o) = some fault := by
    intro fault h
    obtain ⟨o, ho, hkind⟩ := strip_error v h
    exact ⟨o, ho, kindName_error_iff.mp hkind⟩
  refine ⟨⟨fun ⟨fault, h⟩ => ?_, fun ⟨o, ho, hwrong⟩ => ?_⟩, hreason, fun w h => ⟨?_, ?_, ?_⟩⟩
  · obtain ⟨o, ho, hkind⟩ := hreason fault h
    exact ⟨o, ho, by simp [hkind]⟩
  · cases hstrip : strip first v with
    | error fault => exact ⟨fault, rfl⟩
    | ok w =>
      -- where stripping succeeds, the kind has a name
      obtain ⟨name, hname⟩ := kindName_of_retains ho hstrip
      obtain ⟨fault, hfault⟩ := Option.ne_none_iff_exists'.mp hwrong
      rw [kindName_error_iff.mpr hfault] at hname
      cases hname
  · exact strip_clean first v h
  · exact fun path hpath => Json.rel_mono stripsTo_of_strip
      (Json.at?_rel (fun step h hstep => child?_strip step h hstep) h hpath)
  · exact strip_of_clean second w (strip_clean first v h)

/-- A function whose kind is the number 262.0. What its `parent` has for a kind does not count, and
a null stays null. -/
theorem strip_normalForm_real :
    let v : Json := .obj [("kind", .real ⟨0x4070600000000000⟩),
      ("parent", .obj [("kind", .arr [])]),
      ("members", .arr [.obj [("kind", .null), ("pos", .int 3)]])]
    let w : Json := .obj [("kind", .str "FunctionDeclaration"),
      ("members", .arr [.obj [("kind", .null)]])]
    strip KindTable.standard v = .ok w ∧
      ¬ (∃ o, Retains v o ∧ kindFault? (lookup "kind" o) ≠ none) ∧ w.EachObject IsClean ∧
      strip ⟨[]⟩ w = .ok w := by
  intro v w
  have hstrip : strip KindTable.standard v = .ok w := rfl
  obtain ⟨hrefusal, -, hform⟩ := strip_normalForm KindTable.standard ⟨[]⟩ v
  obtain ⟨hclean, -, hagain⟩ := hform w hstrip
  refine ⟨hstrip, fun hwrong => ?_, hclean, hagain⟩
  obtain ⟨fault, hfault⟩ := hrefusal.mpr hwrong
  rw [hstrip] at hfault
  cases hfault

/-- **A number may be wrong for a kind, too.** The numeral 1e999 is read as infinity, which has no
integer part, and a node with that kind is refused though its kind is neither a list nor an
object. -/
theorem strip_infiniteKind :
    let v : Json := .obj [("kind", .real ⟨0x7FF0000000000000⟩)]
    Json.read "\x7b\"kind\": 1e999\x7d" = .ok v ∧
      strip KindTable.standard v = .error .kindInfinite ∧
      ∀ o, Retains v o → (lookup "kind" o).isKey = true := by
  refine ⟨by decide +kernel, by decide +kernel, fun o ho => ?_⟩
  cases ho with
  | self => rfl
  | field hkey hv ho =>
    obtain ⟨-, rfl⟩ := Prod.mk.inj (List.mem_singleton.mp hv)
    cases ho

end Node

end DeclCatalogue
