import DeclCatalogue.Json.Writer
import DeclCatalogue.Proofs.Text.Characters
import DeclCatalogue.Proofs.Text.Numeral

/-!
# Written JSON is in ASCII

Whatever a document holds, its text has characters of ASCII only (`Json.inAscii_indented`): texts
are written with escapes, and numbers, brackets and blanks are of ASCII anyway. So an output that
has these characters has every document.
-/

namespace DeclCatalogue

namespace Text

theorem inAscii_toString (n : Int) : InAscii (toString n) := by
  intro c hc
  rw [toList_toString] at hc
  split at hc
  · rcases List.mem_cons.mp hc with rfl | hdigit
    · rfl
    · exact isAscii_of_mem_toDigits (by omega) hdigit
  · exact isAscii_of_mem_toDigits (by omega) hc

end Text

open Text

namespace FloatLayout

variable {cs : List Char} {c : Char}

theorem isAscii_of_mem_replicate {n : Nat} (h : c ∈ List.replicate n '0') : isAscii c = true := by
  rw [List.eq_of_mem_replicate h]
  rfl

theorem isAscii_positional (hcs : ∀ d ∈ cs, isAscii d = true) (whole : Int)
    (h : c ∈ positional cs whole) : isAscii c = true := by
  unfold positional at h
  split at h
  · simp only [List.mem_append, List.mem_cons, List.not_mem_nil, or_false] at h
    rcases h with ((rfl | rfl) | hzero) | hdigit
    · rfl
    · rfl
    · exact isAscii_of_mem_replicate hzero
    · exact hcs c hdigit
  · simp only [List.mem_append, List.mem_singleton] at h
    rcases h with ((hbefore | hzero) | rfl) | hafter
    · exact hcs c (List.mem_of_mem_take hbefore)
    · exact isAscii_of_mem_replicate hzero
    · rfl
    · split at hafter
      · exact List.mem_singleton.mp hafter ▸ rfl
      · exact hcs c (List.mem_of_mem_drop hafter)

theorem isAscii_scientific (layout : FloatLayout) (hcs : ∀ d ∈ cs, isAscii d = true)
    (exponent : Int) (h : c ∈ layout.scientific cs exponent) : isAscii c = true := by
  unfold scientific at h
  simp only [List.mem_append] at h
  rcases h with (((hlead | hrest) | hsign) | hzero) | hdigit
  · exact hcs c (List.mem_of_mem_take hlead)
  · split at hrest
    · cases hrest
    · rcases List.mem_cons.mp hrest with rfl | hrest
      · rfl
      · exact hcs c (List.mem_of_mem_drop hrest)
  · rcases List.mem_cons.mp hsign with rfl | hsign
    · rfl
    · rw [List.mem_singleton.mp hsign]
      split <;> rfl
  · exact isAscii_of_mem_replicate hzero
  · exact isAscii_of_mem_toDigits (by omega) hdigit

theorem isAscii_decimal (layout : FloatLayout) (d : Binary64.Decimal)
    (h : c ∈ layout.decimal d) : isAscii c = true := by
  have hdigits : ∀ d' ∈ ((natDigits d.digits).reverse.dropWhile (· = '0')).reverse,
      isAscii d' = true := by
    intro d' hd'
    have hmem := List.dropWhile_subset _ (List.mem_reverse.mp hd')
    exact isAscii_of_mem_toDigits (by omega) (List.mem_reverse.mp hmem)
  unfold decimal at h
  dsimp only at h
  split at h
  · exact isAscii_positional hdigits _ h
  · exact isAscii_scientific layout hdigits _ h

end FloatLayout

namespace Json

theorem inAscii_text (x : Binary64) : InAscii (x.text documentFloat) := by
  have hinfinity : InAscii documentFloat.infinity := by decide
  have hsign : InAscii "-" := by decide
  unfold Binary64.text
  split
  · decide
  · split
    · exact each_append.mpr ⟨hsign, hinfinity⟩
    · exact each_append.mpr ⟨fun c hc => (by cases hc), hinfinity⟩
  next negative significand exponent _ =>
    refine each_ofList.mpr fun c hc => ?_
    rcases List.mem_append.mp hc with hc | hc
    · split at hc
      · exact List.mem_singleton.mp hc ▸ rfl
      · cases hc
    · split at hc
      · simp only [List.mem_cons, List.not_mem_nil, or_false] at hc
        rcases hc with rfl | rfl | rfl <;> rfl
      · exact FloatLayout.isAscii_decimal _ _ hc

theorem isAscii_escapeCode {code : Nat} {c : Char} (h : c ∈ escapeCode code) :
    isAscii c = true := by
  have hunit : ∀ n, c ∈ unitEscape n → isAscii c = true := by
    intro n hc
    rcases List.mem_append.mp hc with hc | hc
    · simp only [List.mem_cons, List.not_mem_nil, or_false] at hc
      rcases hc with rfl | rfl <;> rfl
    · exact isAscii_of_mem_hexDigits hc
  unfold escapeCode at h
  split at h
  next short hfound =>
    have hshort : ∀ entry ∈ shortEscapes, isAscii entry.2 = true := by decide
    rcases List.mem_cons.mp h with rfl | h
    · rfl
    · obtain ⟨before, after, hsplit, -⟩ := List.lookup_eq_some_iff.mp hfound
      rw [List.mem_singleton.mp h]
      exact hshort (code, short) (hsplit ▸ List.mem_append_right _ (List.mem_cons_self ..))
  next =>
    split at h
    next hprintable =>
      have hcode : (Char.ofNat code).toNat = code := by
        rw [Char.ofNat, dif_pos (.inl (by omega))]
        rfl
      rw [List.mem_singleton.mp h, isAscii, decide_eq_true_eq, hcode]
      omega
    · split at h
      · exact hunit _ h
      · exact (List.mem_append.mp h).elim (hunit _) (hunit _)

theorem inAscii_quoted (s : String) : InAscii (quoted s) := by
  refine each_ofList.mpr fun c hc => ?_
  rcases List.mem_append.mp hc with hc | hc
  · rcases List.mem_cons.mp hc with rfl | hc
    · rfl
    · obtain ⟨held, -, hc⟩ := List.mem_flatMap.mp hc
      exact isAscii_escapeCode hc
  · exact List.mem_singleton.mp hc ▸ rfl

/-- Spacing in ASCII. -/
structure Spacing.InAscii (spacing : Spacing) : Prop where
  opening : Text.InAscii spacing.opening
  between : Text.InAscii spacing.between
  closing : Text.InAscii spacing.closing

theorem inAscii_bracketed {spacing : Spacing} (hspacing : spacing.InAscii) {left right : String}
    (hleft : InAscii left) (hright : InAscii right) {entries : List String}
    (hentries : ∀ t ∈ entries, InAscii t) : InAscii (bracketed spacing left right entries) := by
  unfold bracketed
  split
  · exact each_append.mpr ⟨hleft, hright⟩
  · simp only [each_append]
    exact ⟨⟨⟨⟨hleft, hspacing.opening⟩, (each_intercalate hspacing.between).mpr hentries⟩,
      hspacing.closing⟩, hright⟩

variable {spacing : Nat → Spacing}

mutual
/-- A value is written in ASCII. -/
theorem inAscii_write (hspacing : ∀ depth, (spacing depth).InAscii) (depth : Nat) :
    ∀ v : Json, InAscii (write spacing depth v)
  | .null => by
    rw [write]
    decide
  | .bool b => by
    rw [write]
    cases b <;> decide
  | .int n => inAscii_toString n
  | .real x => inAscii_text x
  | .str s => inAscii_quoted s
  | .arr items => by
    rw [write]
    exact inAscii_bracketed (hspacing depth) (by decide) (by decide)
      (inAscii_writeItems hspacing (depth + 1) items)
  | .obj fields => by
    rw [write]
    exact inAscii_bracketed (hspacing depth) (by decide) (by decide)
      (inAscii_writeFields hspacing (depth + 1) fields)

theorem inAscii_writeItems (hspacing : ∀ depth, (spacing depth).InAscii) (depth : Nat) :
    ∀ items : List Json, ∀ t ∈ writeItems spacing depth items, InAscii t
  | [] => fun t ht => by cases ht
  | v :: rest => by
    rw [writeItems]
    exact List.forall_mem_cons.mpr
      ⟨inAscii_write hspacing depth v, inAscii_writeItems hspacing depth rest⟩

theorem inAscii_writeFields (hspacing : ∀ depth, (spacing depth).InAscii) (depth : Nat) :
    ∀ fields : Fields, ∀ t ∈ writeFields spacing depth fields, InAscii t
  | [] => fun t ht => by cases ht
  | (k, v) :: rest => by
    rw [writeFields]
    have hkey : InAscii (quoted k ++ ": ") := each_append.mpr ⟨inAscii_quoted k, by decide⟩
    exact List.forall_mem_cons.mpr
      ⟨each_append.mpr ⟨hkey, inAscii_write hspacing depth v⟩,
        inAscii_writeFields hspacing depth rest⟩
end

/-- **The text of a document is in ASCII.** -/
theorem inAscii_indented (step : Nat) (v : Json) : InAscii (v.indented step) := by
  have hline : ∀ depth, InAscii (newLine step depth) := by
    intro depth
    refine each_ofList.mpr fun c hc => ?_
    rcases List.mem_cons.mp hc with rfl | hblank
    · rfl
    · rw [List.eq_of_mem_replicate hblank]
      rfl
  have hcomma : InAscii "," := by decide
  refine inAscii_write (fun depth => ?_) 0 v
  exact ⟨hline (depth + 1), each_append.mpr ⟨hcomma, hline (depth + 1)⟩, hline depth⟩

end Json

end DeclCatalogue
