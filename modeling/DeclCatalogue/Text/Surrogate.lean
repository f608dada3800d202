import DeclCatalogue.Text.Hex

/-!
# Unpaired surrogates

A text in a JSON document is written in units of sixteen bits, and may hold one half of a surrogate
pair without the other. Such a unit stands for no character. It is held as a private-use character
fifteen planes above it, its stand-in.

The characters that would be taken for stand-ins are held as two characters, a mark and a character
further behind in the private-use plane. Every text is held in this way from where it is read on, so
that what is no character is told apart from all that is (`held`); where a text is written, it is
taken apart again into what stands for one code point each (`characters`, `codePoint`).
-/

namespace DeclCatalogue.Text

/-! ## Surrogates -/

/-- Whether a unit is the first half of a pair. -/
def isHighSurrogate (unit : Nat) : Bool :=
  0xD800 ≤ unit && unit < 0xDC00

/-- Whether a unit is the second half of a pair. -/
def isLowSurrogate (unit : Nat) : Bool :=
  0xDC00 ≤ unit && unit < 0xE000

/-- The character of a pair. -/
def pairChar (high low : Nat) : Char :=
  Char.ofNat (0x10000 + (high - 0xD800) * 0x400 + (low - 0xDC00))

/-- The character that holds a unit without its other half. -/
def standIn (unit : Nat) : Char :=
  Char.ofNat (0xF0000 + unit)

/-- The unit that a character holds, if it holds one. -/
def unpaired? (c : Char) : Option Nat :=
  if 0xFD800 ≤ c.toNat ∧ c.toNat < 0xFE000 then some (c.toNat - 0xF0000) else none

/-- Whether all of a text stands for characters. -/
def isWellFormed (s : String) : Bool :=
  s.toList.all fun c => (unpaired? c).isNone

theorem isWellFormed_iff {s : String} :
    isWellFormed s = true ↔ ∀ c ∈ s.toList, unpaired? c = none := by
  simp [isWellFormed]

theorem isWellFormed_ofList {cs : List Char} :
    isWellFormed (String.ofList cs) = true ↔ ∀ c ∈ cs, unpaired? c = none := by
  rw [isWellFormed_iff, String.toList_ofList]

theorem isWellFormed_append (s t : String) :
    isWellFormed (s ++ t) = (isWellFormed s && isWellFormed t) := by
  unfold isWellFormed
  rw [String.toList_append, List.all_append]

theorem unpaired?_of_isAscii {c : Char} (h : isAscii c = true) : unpaired? c = none := by
  rw [isAscii, decide_eq_true_eq] at h
  rw [unpaired?, if_neg (by omega)]

/-! ## Holding characters -/

/-- The mark in front of a character that is held further behind. -/
def mark : Char := Char.ofNat 0xFE000

/-- Whether a character would be taken for a stand-in or for the mark. -/
def isReserved (c : Char) : Bool :=
  0xFD800 ≤ c.toNat && c.toNat ≤ 0xFE000

/-- How far behind itself a reserved character is held. -/
def shift : Nat := 0x801

/-- What a character is held as. -/
def hold (c : Char) : List Char :=
  if isReserved c then [mark, Char.ofNat (c.toNat + shift)] else [c]

/-- A text of characters, as it is held. -/
def held (s : String) : String :=
  String.ofList (s.toList.flatMap hold)

/-- What is held for each code point of a text. -/
def characters : List Char → List (List Char)
  | [] => []
  | [c] => [[c]]
  | c :: d :: rest =>
    if c = mark then [c, d] :: characters rest else [c] :: characters (d :: rest)

/-- The code point that is held. -/
def codePoint : List Char → Nat
  | [] => 0
  | [c] => (unpaired? c).getD c.toNat
  | _ :: d :: _ => d.toNat - shift

/-- A text as it is handed out, without marks. -/
def released (s : String) : String :=
  String.ofList ((characters s.toList).map fun held => Char.ofNat (codePoint held))

/-! ## Held texts are told apart from stand-ins -/

theorem toNat_ofNat_shift {c : Char} (h : isReserved c = true) :
    (Char.ofNat (c.toNat + shift)).toNat = c.toNat + shift := by
  simp only [isReserved, Bool.and_eq_true, decide_eq_true_eq] at h
  have valid : (c.toNat + shift).isValidChar := by
    right
    simp only [shift]
    omega
  rw [Char.ofNat, dif_pos valid]
  rfl

theorem toNat_mark : mark.toNat = 0xFE000 := rfl

/-- A character that is not reserved is neither the mark nor a stand-in. -/
theorem ne_mark_of_not_isReserved {c : Char} (h : isReserved c = false) : c ≠ mark := by
  rintro rfl
  simp [isReserved, toNat_mark] at h

theorem unpaired?_eq_none_of_not_isReserved {c : Char} (h : isReserved c = false) :
    unpaired? c = none := by
  simp only [isReserved, Bool.and_eq_false_iff, decide_eq_false_iff_not] at h
  rw [unpaired?, if_neg (by omega)]

/-- Nothing that a character is held as is a stand-in. -/
theorem unpaired?_of_mem_hold {c d : Char} (h : d ∈ hold c) : unpaired? d = none := by
  rw [hold] at h
  split at h
  case isTrue reserved =>
    have behind := toNat_ofNat_shift reserved
    simp only [isReserved, Bool.and_eq_true, decide_eq_true_eq] at reserved
    rcases List.mem_cons.mp h with rfl | h
    · rw [unpaired?, toNat_mark, if_neg (by omega)]
    · rw [List.mem_singleton.mp h, unpaired?, behind, if_neg (by simp only [shift]; omega)]
  case isFalse free =>
    rw [List.mem_singleton.mp h]
    exact unpaired?_eq_none_of_not_isReserved (Bool.not_eq_true _ ▸ free)

/-- A text of characters stands for characters however it is held. -/
@[simp] theorem isWellFormed_held (s : String) : isWellFormed (held s) = true := by
  rw [held, isWellFormed_ofList]
  intro d hd
  obtain ⟨c, -, hc⟩ := List.mem_flatMap.mp hd
  exact unpaired?_of_mem_hold hc

/-! ## Taking held texts apart -/

theorem characters_hold_append (c : Char) (rest : List Char) :
    characters (hold c ++ rest) = hold c :: characters rest := by
  rw [hold]
  split
  case isTrue => simp [characters]
  case isFalse free =>
    have hc : c ≠ mark := ne_mark_of_not_isReserved (Bool.not_eq_true _ ▸ free)
    cases rest <;> simp [characters, hc]

theorem characters_flatMap_hold (cs : List Char) : characters (cs.flatMap hold) = cs.map hold := by
  induction cs with
  | nil => rfl
  | cons c rest ih => rw [List.flatMap_cons, characters_hold_append, ih, List.map_cons]

/-- What a character is held as stands for its code point. -/
theorem codePoint_hold (c : Char) : codePoint (hold c) = c.toNat := by
  rw [hold]
  split
  case isTrue reserved =>
    rw [codePoint, toNat_ofNat_shift reserved, Nat.add_sub_cancel]
  case isFalse free =>
    rw [Bool.not_eq_true] at free
    rw [codePoint, unpaired?_eq_none_of_not_isReserved free, Option.getD_none]

/-- A text of characters is handed out as it was read. -/
theorem released_held (s : String) : released (held s) = s := by
  have each : ∀ c : Char, Char.ofNat (codePoint (hold c)) = c := fun c => by
    rw [codePoint_hold, Char.ofNat_toNat]
  simp [released, held, characters_flatMap_hold, Function.comp_def, each]

end DeclCatalogue.Text
