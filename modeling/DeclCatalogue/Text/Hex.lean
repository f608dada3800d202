/-!
# Hexadecimal digits

Numbers in lower-case hexadecimal digits of a fixed width.
-/

namespace DeclCatalogue.Text

/-- The lower-case hexadecimal digits of a number, padded with zeros to a width. -/
def hexDigits (width n : Nat) : List Char :=
  let digits := Nat.toDigits 16 n
  List.replicate (width - digits.length) '0' ++ digits

/-- Whether a character is one of the first hundred and twenty-eight. -/
def isAscii (c : Char) : Bool :=
  c.toNat < 0x80

theorem isAscii_digitChar (n : Nat) : isAscii n.digitChar = true := by
  have hdigit : ∀ n : Fin 16, isAscii (Nat.digitChar n) = true := by decide
  by_cases h : n < 16
  · exact hdigit ⟨n, h⟩
  · unfold Nat.digitChar
    repeat rw [if_neg (by omega)]
    rfl

/-- Notation to any base is in ASCII. -/
theorem isAscii_of_mem_toDigits {base n : Nat} (hbase : 1 < base) {c : Char}
    (h : c ∈ Nat.toDigits base n) : isAscii c = true := by
  induction n using Nat.strongRecOn with
  | ind n ih =>
    rw [Nat.toDigits_eq_if hbase] at h
    split at h
    next => exact List.mem_singleton.mp h ▸ isAscii_digitChar n
    next hmore =>
      have hsmaller : n / base < n := Nat.div_lt_self (by omega) hbase
      rcases List.mem_append.mp h with hfront | hlast
      · exact ih (n / base) hsmaller hfront
      · exact List.mem_singleton.mp hlast ▸ isAscii_digitChar _

theorem isAscii_of_mem_hexDigits {width n : Nat} {c : Char} (h : c ∈ hexDigits width n) :
    isAscii c = true := by
  rcases List.mem_append.mp h with hzero | hdigit
  · rw [List.eq_of_mem_replicate hzero]
    rfl
  · exact isAscii_of_mem_toDigits (by omega) hdigit

theorem le_length_hexDigits (width n : Nat) : width ≤ (hexDigits width n).length := by
  unfold hexDigits
  rw [List.length_append, List.length_replicate]
  omega

end DeclCatalogue.Text
