import DeclCatalogue.Text.Digit
import DeclCatalogue.Text.Hex
import Mathlib.Data.Nat.Digits.Defs
import Mathlib.Data.Nat.Digits.Lemmas

/-!
# What a numeral stands for

`IsNatural` says by the digits of a numeral, in any script, which number it stands for, and
`IsInteger` adds a minus sign. `integer?_eq_some_iff` is that reading finds this number, if there
are no more digits than can be read. Writing an integer in decimal notation gives a numeral of it
(`isInteger_toString`), so it is read back, short of the limit (`integer?_toString`).

Fewer texts are numerals than look like one: `LooksNumeric` allows any number of minus signs and any
digits, those without a place value too.

Hexadecimal digits are only written. What they stand for is said so that the zeros in front are seen
to count nothing, and numbers are told apart by their digits (`hexDigits_injective`).
-/

namespace DeclCatalogue.Text

variable {cs : List Char} {c : Char} {n m : Nat}

/-! ## Numerals -/

/-- A digit sequence stands for a number: the last digit counts ones, those in front of it tens. -/
inductive IsNatural : List Char → Nat → Prop where
  | digit {c : Char} {value : Nat} (h : decimalValue? c = some value) : IsNatural [c] value
  | append {cs : List Char} {n : Nat} {c : Char} {value : Nat} (front : IsNatural cs n)
      (h : decimalValue? c = some value) : IsNatural (cs ++ [c]) (10 * n + value)

/-- A numeral of an integer: a digit sequence, behind a minus sign for the opposite number. -/
inductive IsInteger : List Char → Int → Prop where
  | natural {cs : List Char} {n : Nat} (h : IsNatural cs n) : IsInteger cs n
  | negative {cs : List Char} {n : Nat} (h : IsNatural cs n) : IsInteger ('-' :: cs) (-n)

/-- A text looks like a number: digits of any kind, behind any number of minus signs. -/
def LooksNumeric (text : String) : Prop :=
  ∃ (signs : Nat) (digits : List Char), text.toList = List.replicate signs '-' ++ digits ∧
    digits ≠ [] ∧ ∀ c ∈ digits, isDigit c = true

/-! ## Reading a digit sequence -/

theorem positionalValue_append (values : List Nat) (value : Nat) :
    positionalValue (values ++ [value]) = 10 * positionalValue values + value := by
  unfold positionalValue
  rw [List.foldl_append, List.foldl_cons, List.foldl_nil, Nat.mul_comm]

theorem mapM_decimalValue?_append (cs : List Char) (c : Char) :
    (cs ++ [c]).mapM decimalValue? = (cs.mapM decimalValue?).bind fun values =>
      (decimalValue? c).map fun value => values ++ [value] := by
  rw [List.mapM_append, List.mapM_cons, List.mapM_nil]
  cases cs.mapM decimalValue? <;> cases decimalValue? c <;> rfl

/-- The place values of a numeral make up the number that it stands for. -/
theorem IsNatural.positionalValue_eq (h : IsNatural cs n) :
    ∃ values, cs.mapM decimalValue? = some values ∧ positionalValue values = n := by
  induction h with
  | @digit c value h =>
    refine ⟨[value], ?_, ?_⟩
    · rw [List.mapM_cons, List.mapM_nil, h]
      rfl
    · exact Nat.zero_add _
  | @append cs n c value _ h ih =>
    obtain ⟨values, hvalues, rfl⟩ := ih
    refine ⟨values ++ [value], ?_, positionalValue_append values value⟩
    rw [mapM_decimalValue?_append, hvalues, h]
    rfl

theorem isNatural_of_mapM {values : List Nat} (hne : cs ≠ [])
    (h : cs.mapM decimalValue? = some values) : IsNatural cs (positionalValue values) := by
  induction cs using List.reverseRecOn generalizing values with
  | nil => exact absurd rfl hne
  | append_singleton cs c ih =>
    rw [mapM_decimalValue?_append] at h
    obtain ⟨front, hfront, hlast⟩ := Option.bind_eq_some_iff.mp h
    obtain ⟨value, hvalue, rfl⟩ := Option.map_eq_some_iff.mp hlast
    rw [positionalValue_append]
    cases cs with
    | nil =>
      obtain rfl : front = [] := (Option.some.inj hfront).symm
      rw [show 10 * positionalValue [] + value = value from Nat.zero_add _]
      exact .digit hvalue
    | cons d ds => exact .append (ih (List.cons_ne_nil d ds) hfront) hvalue

theorem IsNatural.ne_nil (h : IsNatural cs n) : cs ≠ [] := by
  cases h with
  | digit => exact List.cons_ne_nil _ _
  | append => exact List.append_ne_nil_of_right_ne_nil _ (List.cons_ne_nil _ _)

theorem IsNatural.isDigit (h : IsNatural cs n) : ∀ c ∈ cs, isDigit c = true := by
  have hdigit : ∀ {c value}, decimalValue? c = some value → Text.isDigit c = true := by
    intro c value h
    rw [Text.isDigit, h]
    rfl
  induction h with
  | digit h => exact List.forall_mem_singleton.mpr (hdigit h)
  | append _ h ih =>
    exact List.forall_mem_append.mpr ⟨ih, List.forall_mem_singleton.mpr (hdigit h)⟩

/-- A digit sequence stands for one number. -/
theorem IsNatural.unique (h : IsNatural cs n) (h' : IsNatural cs m) : n = m := by
  obtain ⟨values, hvalues, rfl⟩ := h.positionalValue_eq
  obtain ⟨values', hvalues', rfl⟩ := h'.positionalValue_eq
  rw [Option.some.inj (hvalues.symm.trans hvalues')]

theorem isNatural_of_natural? (h : natural? cs = some n) : IsNatural cs n := by
  unfold natural? at h
  split at h
  next => cases h
  next hlimits =>
    obtain ⟨values, hvalues, rfl⟩ := Option.map_eq_some_iff.mp h
    refine isNatural_of_mapM (fun hnil => hlimits ?_) hvalues
    rw [hnil]
    rfl

theorem IsNatural.natural?_eq (h : IsNatural cs n) (hlen : cs.length ≤ maxDigits) :
    natural? cs = some n := by
  obtain ⟨values, hvalues, rfl⟩ := h.positionalValue_eq
  unfold natural?
  rw [if_neg, hvalues]
  · rfl
  · simpa [h.ne_nil] using hlen

theorem natural?_of_long (h : maxDigits < cs.length) : natural? cs = none :=
  if_pos (by simp [h])

/-! ## Reading a numeral -/

theorem isDigit_minus : isDigit '-' = false := by decide

/-- What stands behind the sign, or the text itself: digits in either case. -/
theorem IsInteger.cases_natAbs {i : Int} (h : IsInteger cs i) :
    ∃ digits, IsNatural digits i.natAbs ∧ (cs = digits ∨ cs = '-' :: digits) := by
  cases h with
  | natural h => exact ⟨_, h, .inl rfl⟩
  | negative h => exact ⟨_, by rwa [Int.natAbs_neg], .inr rfl⟩

/-- A digit sequence does not start with a minus sign. -/
theorem not_isNatural_minus : ¬ IsNatural ('-' :: cs) n := fun h => by
  have hminus := h.isDigit '-' (List.mem_cons_self ..)
  rw [isDigit_minus] at hminus
  cases hminus

theorem integer?_of_isNatural (h : IsNatural cs n) :
    integer? cs = (natural? cs).map fun (n : Nat) => (n : Int) := by
  unfold integer?
  split
  next => exact absurd h not_isNatural_minus
  next => rfl

theorem isInteger_of_integer? {i : Int} (h : integer? cs = some i) : IsInteger cs i := by
  unfold integer? at h
  split at h
  · obtain ⟨n, hn, rfl⟩ := Option.map_eq_some_iff.mp h
    exact .negative (isNatural_of_natural? hn)
  · obtain ⟨n, hn, rfl⟩ := Option.map_eq_some_iff.mp h
    exact .natural (isNatural_of_natural? hn)

/-- A numeral stands for one integer. -/
theorem IsInteger.unique {i j : Int} (h : IsInteger cs i) (h' : IsInteger cs j) : i = j := by
  cases h with
  | natural h =>
    cases h' with
    | natural h' => rw [h.unique h']
    | negative => exact absurd h not_isNatural_minus
  | negative h =>
    cases h' with
    | natural h' => exact absurd h' not_isNatural_minus
    | negative h' => rw [h.unique h']

/-- **A numeral is read as the integer that it stands for,** and nothing else is read, where there
are not too many digits. -/
theorem integer?_eq_some_iff {i : Int} (hlen : cs.length ≤ maxDigits) :
    integer? cs = some i ↔ IsInteger cs i := by
  refine ⟨isInteger_of_integer?, fun h => ?_⟩
  cases h with
  | natural h => rw [integer?_of_isNatural h, h.natural?_eq hlen, Option.map_some]
  | negative h =>
    have hdigits := h.natural?_eq (Nat.le_of_succ_le hlen)
    rw [integer?, hdigits, Option.map_some]

theorem IsInteger.looksNumeric {text : String} {i : Int} (h : IsInteger text.toList i) :
    LooksNumeric text := by
  obtain ⟨digits, hdigits, htext | htext⟩ := h.cases_natAbs
  · exact ⟨0, digits, htext, hdigits.ne_nil, hdigits.isDigit⟩
  · exact ⟨1, digits, htext, hdigits.ne_nil, hdigits.isDigit⟩

/-! ## Decimal notation -/

theorem decimalValue?_digitChar : n < 10 → decimalValue? n.digitChar = some n := by
  have h : ∀ n : Fin 10, decimalValue? (Nat.digitChar n) = some n.val := by decide +kernel
  exact fun hn => h ⟨n, hn⟩

theorem isNatural_toDigits (n : Nat) : IsNatural (Nat.toDigits 10 n) n := by
  induction n using Nat.strongRecOn with
  | ind n ih =>
    rw [Nat.toDigits_eq_if (by omega)]
    split
    next hone => exact .digit (decimalValue?_digitChar hone)
    next hmore =>
      have hlast := decimalValue?_digitChar (Nat.mod_lt n (by omega : 0 < 10))
      have hdigits := (ih (n / 10) (by omega)).append hlast
      rwa [Nat.div_add_mod] at hdigits

/-- An integer in decimal notation: a minus sign if it is negative, and the digits of its size. -/
theorem toList_toString (i : Int) : (toString i).toList =
    if i < 0 then '-' :: Nat.toDigits 10 i.natAbs else Nat.toDigits 10 i.natAbs := by
  cases i with
  | ofNat n =>
    rw [if_neg (by exact Int.not_lt.mpr (Int.natCast_nonneg n))]
    exact Nat.toList_repr
  | negSucc n =>
    rw [if_pos (Int.negSucc_lt_zero n)]
    show ("-" ++ Nat.repr (n + 1)).toList = _
    rw [String.toList_append, Nat.toList_repr]
    rfl

/-- Decimal notation is a numeral. -/
theorem isInteger_toString (i : Int) : IsInteger (toString i).toList i := by
  have hdigits := isNatural_toDigits i.natAbs
  rw [toList_toString]
  split
  next hneg =>
    have h := IsInteger.negative hdigits
    rwa [show -(i.natAbs : Int) = i by omega] at h
  next hnonneg =>
    have h := IsInteger.natural hdigits
    rwa [show (i.natAbs : Int) = i by omega] at h

theorem length_toDigits_le_maxDigits_iff :
    (Nat.toDigits 10 n).length ≤ maxDigits ↔ n < 10 ^ maxDigits :=
  Nat.length_toDigits_le_iff (by omega) (by decide)

theorem integer?_toString_eq (i : Int) :
    integer? (toString i).toList = (natural? (Nat.toDigits 10 i.natAbs)).map fun _ => i := by
  have hdigits := isNatural_toDigits i.natAbs
  have hread : ∀ n, natural? (Nat.toDigits 10 i.natAbs) = some n → n = i.natAbs :=
    fun n hn => (isNatural_of_natural? hn).unique hdigits
  rw [toList_toString]
  split
  next hneg =>
    rw [integer?]
    refine Option.map_congr fun n hn => ?_
    have hn := hread n hn
    omega
  next hnonneg =>
    rw [integer?_of_isNatural hdigits]
    refine Option.map_congr fun n hn => ?_
    have hn := hread n hn
    omega

/-- **Decimal notation is read back,** where there are not too many digits. -/
theorem integer?_toString {i : Int} (h : i.natAbs < 10 ^ maxDigits) :
    integer? (toString i).toList = some i := by
  have hlen := length_toDigits_le_maxDigits_iff.mpr h
  rw [integer?_toString_eq, (isNatural_toDigits i.natAbs).natural?_eq hlen, Option.map_some]

/-- An integer with more digits than can be read is not read back. -/
theorem integer?_toString_of_long {i : Int} (h : 10 ^ maxDigits ≤ i.natAbs) :
    integer? (toString i).toList = none := by
  have hlen : maxDigits < (Nat.toDigits 10 i.natAbs).length :=
    Nat.not_le.mp fun hle => Nat.not_lt.mpr h (length_toDigits_le_maxDigits_iff.mp hle)
  rw [integer?_toString_eq, natural?_of_long hlen, Option.map_none]

/-- Powers of ten are not read back from where there are as many zeros as digits can be read. -/
theorem integer?_toString_ten_pow {k : Nat} (h : maxDigits ≤ k) :
    integer? (toString ((10 : Int) ^ k)).toList = none := by
  refine integer?_toString_of_long ?_
  rw [Int.natAbs_pow, show (10 : Int).natAbs = 10 from rfl]
  exact Nat.pow_le_pow_right (n := 10) (Nat.succ_pos 9) h

/-- What is not too long in decimal notation does not have too many digits. -/
theorem natAbs_lt_of_length_toString {i : Int} (h : (toString i).length ≤ maxDigits) :
    i.natAbs < 10 ^ maxDigits := by
  rw [← String.length_toList, toList_toString] at h
  refine length_toDigits_le_maxDigits_iff.mp (Nat.le_trans ?_ h)
  split
  · exact Nat.le_succ _
  · exact Nat.le_refl _

/-! ## Hexadecimal notation -/

/-- The place value of a hexadecimal digit. -/
def hexValue (c : Char) : Nat :=
  "0123456789abcdef".toList.idxOf c

/-- The number that hexadecimal digits stand for. -/
def ofHexDigits (cs : List Char) : Nat :=
  cs.foldl (fun n c => 16 * n + hexValue c) 0

theorem hexValue_digitChar : n < 16 → hexValue n.digitChar = n := by
  have h : ∀ n : Fin 16, hexValue (Nat.digitChar n) = n.val := by decide +kernel
  exact fun hn => h ⟨n, hn⟩

theorem ofHexDigits_append_singleton (cs : List Char) (c : Char) :
    ofHexDigits (cs ++ [c]) = 16 * ofHexDigits cs + hexValue c := by
  unfold ofHexDigits
  rw [List.foldl_append, List.foldl_cons, List.foldl_nil]

theorem ofHexDigits_toDigits (n : Nat) : ofHexDigits (Nat.toDigits 16 n) = n := by
  induction n using Nat.strongRecOn with
  | ind n ih =>
    rw [Nat.toDigits_eq_if (by omega)]
    split
    next hone => exact (Nat.zero_add _).trans (hexValue_digitChar hone)
    next hmore =>
      rw [ofHexDigits_append_singleton, ih (n / 16) (by omega),
        hexValue_digitChar (Nat.mod_lt n (by omega)), Nat.div_add_mod]

/-- Zeros in front count nothing. -/
theorem ofHexDigits_replicate_append (k : Nat) (cs : List Char) :
    ofHexDigits (List.replicate k '0' ++ cs) = ofHexDigits cs := by
  induction k with
  | zero => rfl
  | succ k ih => exact ih

theorem ofHexDigits_hexDigits (width n : Nat) : ofHexDigits (hexDigits width n) = n :=
  (ofHexDigits_replicate_append _ _).trans (ofHexDigits_toDigits n)

/-- Hexadecimal notation tells numbers apart, also those with more digits than the width. -/
theorem hexDigits_injective (width : Nat) : Function.Injective (hexDigits width) :=
  Function.LeftInverse.injective (ofHexDigits_hexDigits width)

end DeclCatalogue.Text
