import DeclCatalogue.Number.Binary64

/-!
# Numbers with the same integer value

A pattern of sixty-four bits that stands for a finite number is made up of the sign, significand and
exponent of the number (`bits_of_value`), and significands fill fifty-three bits unless the exponent
is the least one (`value_normal`). So no two patterns stand for one number, and two that are equal to
one integer are the same pattern, with zero, which has two, as the exception:
`eq_of_integer?_eq_some`.
-/

namespace DeclCatalogue.Binary64

variable {x y : Binary64} {negative negative' : Bool} {significand significand' : Nat}
  {exponent exponent' : Int}

/-- The parts of a finite number that its pattern is made up of. -/
theorem bits_of_value (h : x.value = .finite negative significand exponent) :
    x.bits.toNat = (if negative then signBit else 0) +
      (if significand < leadingBit then significand
      else (exponent + 1075).toNat * leadingBit + (significand - leadingBit)) := by
  have hword : x.bits.toNat < 2 ^ 64 := x.bits.toNat_lt
  unfold value at h
  dsimp only at h
  generalize x.bits.toNat = word at h hword
  unfold signBit leadingBit at *
  split at h
  · split at h <;> cases h
  · split at h
    · obtain ⟨rfl, rfl, rfl⟩ := Value.finite.inj h
      simp only [decide_eq_true_eq]
      split <;> rw [if_pos (by omega)] <;> omega
    · obtain ⟨rfl, rfl, rfl⟩ := Value.finite.inj h
      simp only [decide_eq_true_eq]
      split <;> rw [if_neg (by omega)] <;> omega

/-- Significands have fifty-three bits; only with the least exponent they may have fewer. -/
theorem value_normal (h : x.value = .finite negative significand exponent) :
    significand < 2 * leadingBit ∧ -1074 ≤ exponent ∧
      (significand < leadingBit → exponent = -1074) := by
  unfold value at h
  dsimp only at h
  generalize x.bits.toNat = word at h
  unfold leadingBit at *
  split at h
  · split at h <;> cases h
  · split at h
    · obtain ⟨rfl, rfl, rfl⟩ := Value.finite.inj h
      omega
    · obtain ⟨rfl, rfl, rfl⟩ := Value.finite.inj h
      omega

/-- A number has one pattern. -/
theorem eq_of_value_eq (hx : x.value = .finite negative significand exponent)
    (hy : y.value = .finite negative significand exponent) : x = y := by
  have hbits : x.bits.toNat = y.bits.toNat := by
    rw [bits_of_value hx, bits_of_value hy]
  cases x
  cases y
  exact congrArg mk (UInt64.toNat_inj.mp hbits)

theorem natAbs_signed (negative : Bool) (n : Nat) : (signed negative n).natAbs = n := by
  cases negative
  · exact Int.natAbs_natCast n
  · exact Int.natAbs_neg n

/-- The sign of an integer other than zero can be read off. -/
theorem sign_unique {n : Nat} (h : signed negative n = signed negative' n) (hn : n ≠ 0) :
    negative = negative' := by
  cases negative <;> cases negative' <;>
    simp only [signed, Bool.false_eq_true, if_false, if_true] at h <;> first
    | rfl
    | omega

/-- A number that is an integer, as a product: the significand and the magnitude of the integer
differ by a power of two. -/
theorem magnitude_of_integer? {n : Int} (h : x.integer? = some n) :
    ∃ negative significand exponent, x.value = .finite negative significand exponent ∧
      n = signed negative n.natAbs ∧
        (ratio significand exponent).1 = n.natAbs * (ratio significand exponent).2 := by
  unfold integer? at h
  split at h
  next negative significand exponent hvalue =>
    dsimp only at h
    split at h
    next hdivides =>
      have hmagnitude : n.natAbs =
          (ratio significand exponent).1 / (ratio significand exponent).2 := by
        rw [← Option.some.inj h, natAbs_signed]
      refine ⟨negative, significand, exponent, hvalue, ?_, ?_⟩
      · rw [hmagnitude]
        exact (Option.some.inj h).symm
      · rw [hmagnitude]
        exact (Nat.div_mul_cancel (Nat.dvd_of_mod_eq_zero hdivides)).symm
    next => cases h
  next => cases h

/-- Of two significands of one magnitude the one with the smaller exponent is the larger one, by a
power of two. -/
theorem significand_shift {m : Nat} (hle : exponent ≤ exponent')
    (h : (ratio significand exponent).1 = m * (ratio significand exponent).2)
    (h' : (ratio significand' exponent').1 = m * (ratio significand' exponent').2) :
    significand = significand' * Nat.pow 2 (exponent' - exponent).toNat := by
  replace h : significand * 2 ^ exponent.toNat = m * 2 ^ (-exponent).toNat := h
  replace h' : significand' * 2 ^ exponent'.toNat = m * 2 ^ (-exponent').toNat := h'
  show significand = significand' * 2 ^ (exponent' - exponent).toNat
  -- both sides times the powers of two that make all exponents natural
  have hpos : 0 < 2 ^ (exponent.toNat + (-exponent').toNat) := Nat.two_pow_pos _
  refine Nat.eq_of_mul_eq_mul_right hpos ?_
  have hexponents : (exponent' - exponent).toNat + (exponent.toNat + (-exponent').toNat) =
      exponent'.toNat + (-exponent).toNat := by omega
  calc significand * 2 ^ (exponent.toNat + (-exponent').toNat)
      = significand * 2 ^ exponent.toNat * 2 ^ (-exponent').toNat := by
        rw [Nat.pow_add, Nat.mul_assoc]
    _ = m * 2 ^ (-exponent').toNat * 2 ^ (-exponent).toNat := by
        rw [h, Nat.mul_right_comm]
    _ = significand' * 2 ^ (exponent'.toNat + (-exponent).toNat) := by
        rw [← h', Nat.pow_add, Nat.mul_assoc]
    _ = significand' * 2 ^ (exponent' - exponent).toNat *
          2 ^ (exponent.toNat + (-exponent').toNat) := by
        rw [← hexponents, Nat.pow_add, Nat.mul_assoc]

/-- Two significands of one magnitude have the same exponent, if they are normal and not zero. -/
theorem exponent_le (hx : x.value = .finite negative significand exponent)
    (hy : y.value = .finite negative' significand' exponent')
    {m : Nat} (h : (ratio significand exponent).1 = m * (ratio significand exponent).2)
    (h' : (ratio significand' exponent').1 = m * (ratio significand' exponent').2) :
    exponent' ≤ exponent := by
  obtain ⟨hbound, hleast, -⟩ := value_normal hx
  obtain ⟨-, -, hsmall⟩ := value_normal hy
  refine Int.not_lt.mp fun hlt => ?_
  have hshift := significand_shift (by omega) h h'
  -- a larger exponent means a full significand, which has no room to be doubled
  have hfull : leadingBit ≤ significand' := by
    refine Nat.not_lt.mp fun hless => ?_
    have hexponent := hsmall hless
    omega
  have htwo : 2 ≤ Nat.pow 2 (exponent' - exponent).toNat := by
    calc 2 = 2 ^ 1 := rfl
      _ ≤ 2 ^ (exponent' - exponent).toNat := Nat.pow_le_pow_right (by omega) (by omega)
  have hdouble : significand' * 2 ≤ significand := by
    rw [hshift]
    exact Nat.mul_le_mul_left _ htwo
  omega

/-- **An integer has one pattern,** but for zero, which has two. -/
theorem eq_of_integer?_eq_some {n : Int} (hx : x.integer? = some n) (hy : y.integer? = some n)
    (hn : n ≠ 0) : x = y := by
  obtain ⟨negative, significand, exponent, hxvalue, hxsign, hxmagnitude⟩ := magnitude_of_integer? hx
  obtain ⟨negative', significand', exponent', hyvalue, hysign, hymagnitude⟩ :=
    magnitude_of_integer? hy
  have hexponent : exponent = exponent' :=
    Int.le_antisymm (exponent_le hyvalue hxvalue hymagnitude hxmagnitude)
      (exponent_le hxvalue hyvalue hxmagnitude hymagnitude)
  subst hexponent
  have hsignificand : significand = significand' := by
    have hshift := significand_shift (Int.le_refl _) hxmagnitude hymagnitude
    rw [Int.sub_self] at hshift
    exact hshift.trans (Nat.mul_one _)
  subst hsignificand
  have hsign : negative = negative' := sign_unique (hxsign.symm.trans hysign) (by omega)
  subst hsign
  exact eq_of_value_eq hxvalue hyvalue

end DeclCatalogue.Binary64
