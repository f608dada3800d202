/-!
# Binary64 numbers

The sixty-four bit floating-point numbers that a JSON document may hold. A number is its bit
pattern, so that two of them are told apart exactly, and all arithmetic on it is integer
arithmetic on the sign, significand and exponent that the pattern stands for.

* `Binary64.value` reads a pattern as `± significand · 2 ^ exponent`, an infinity or no number;
* `Binary64.truncate` and `Binary64.integer?` are its integer part and its integer value;
* `Binary64.ofDecimal` rounds a decimal numeral to the nearest pattern, a tie to the even one.
-/

namespace DeclCatalogue

/-- A sixty-four bit binary floating-point number, kept as its bit pattern. -/
structure Binary64 where
  bits : UInt64
  deriving DecidableEq, Repr, Inhabited

namespace Binary64

/-- What a bit pattern stands for. -/
inductive Value where
  /-- The number `significand · 2 ^ exponent`, with its sign. -/
  | finite (negative : Bool) (significand : Nat) (exponent : Int)
  | infinite (negative : Bool)
  | notANumber
  deriving DecidableEq, Repr

/-- The leading bit of a significand of fifty-three bits; patterns do not show it. -/
def leadingBit : Nat := 0x10000000000000

/-- The bit of the sign. -/
def signBit : Nat := 0x8000000000000000

/-- Patterns with exponent field zero have no hidden leading bit; those with the largest field are
not finite. -/
def value (x : Binary64) : Value :=
  let word := x.bits.toNat
  let negative := decide (signBit ≤ word)
  let field : Nat := word / leadingBit % 2048
  let fraction := word % leadingBit
  if field = 2047 then
    if fraction = 0 then .infinite negative else .notANumber
  else if field = 0 then .finite negative fraction (-1074)
  else .finite negative (leadingBit + fraction) ((field : Int) - 1075)

/-- The magnitude `significand · 2 ^ exponent` as a quotient of two naturals. -/
def ratio (significand : Nat) (exponent : Int) : Nat × Nat :=
  (significand * Nat.pow 2 exponent.toNat, Nat.pow 2 (-exponent).toNat)

/-- `n` with the given sign. -/
def signed (negative : Bool) (n : Nat) : Int :=
  if negative then -(n : Int) else n

/-- Whether a pattern stands for no number. -/
def isNaN (x : Binary64) : Bool :=
  x.value = .notANumber

/-- The integer next to a finite number towards zero. -/
def truncate (x : Binary64) : Option Int :=
  match x.value with
  | .finite negative significand exponent =>
    let r := ratio significand exponent
    some (signed negative (r.1 / r.2))
  | _ => none

/-- The integer that a number is equal to, if it is one. -/
def integer? (x : Binary64) : Option Int :=
  match x.value with
  | .finite negative significand exponent =>
    let r := ratio significand exponent
    if r.1 % r.2 = 0 then some (signed negative (r.1 / r.2)) else none
  | _ => none

/-- Both zeros are zero. -/
def isZero (x : Binary64) : Bool :=
  x.integer? = some 0

/-- Equality of the numbers and not of the patterns: the two zeros are equal. A pattern that stands
for no number is equal to itself, so that whatever is kept under a key is found again. -/
def sameNumber (x y : Binary64) : Bool :=
  x = y || (x.isZero && y.isZero)

/-! ## Rounding -/

/-- The quotient `numerator / denominator` rounded to an integer, a tie to the even one. -/
def roundDiv (numerator denominator : Nat) : Nat :=
  let quotient := numerator / denominator
  let twice := 2 * (numerator % denominator)
  if twice < denominator then quotient
  else if denominator < twice then quotient + 1
  else quotient + quotient % 2

/-- `numerator / denominator / 2 ^ exponent` as a quotient of two naturals. -/
def scaled (numerator denominator : Nat) (exponent : Int) : Nat × Nat :=
  (numerator * Nat.pow 2 (-exponent).toNat, denominator * Nat.pow 2 exponent.toNat)

/-- The exponent at which the significand of a positive quotient has fifty-three bits, or the least
exponent there is. -/
def exponentOf (numerator denominator : Nat) : Int :=
  let guess : Int := (numerator.log2 : Int) - (denominator.log2 : Int) - 52
  let atGuess := scaled numerator denominator guess
  let exponent := if atGuess.1 / atGuess.2 < leadingBit then guess - 1 else guess
  max exponent (-1074)

/-- The pattern of a sign, a significand of at most fifty-three bits and an exponent. -/
def pack (negative : Bool) (significand : Nat) (exponent : Int) : Binary64 :=
  let sign := if negative then signBit else 0
  if significand < leadingBit then ⟨(sign + significand).toUInt64⟩
  else if 971 < exponent then ⟨(sign + 2047 * leadingBit).toUInt64⟩
  else ⟨(sign + (exponent + 1075).toNat * leadingBit + (significand - leadingBit)).toUInt64⟩

/-- The infinity of a sign. -/
def infinite (negative : Bool) : Binary64 :=
  pack negative leadingBit 972

/-- The number nearest to `numerator / denominator`. -/
def ofRatio (negative : Bool) (numerator denominator : Nat) : Binary64 :=
  if numerator = 0 then pack negative 0 0
  else
    let exponent := exponentOf numerator denominator
    let r := scaled numerator denominator exponent
    let significand := roundDiv r.1 r.2
    if significand = 2 * leadingBit then pack negative leadingBit (exponent + 1)
    else pack negative significand exponent

/-- The number nearest to `digits · 10 ^ exponent`. Numerals far outside the range of binary64
are decided by their size alone. -/
def ofDecimal (negative : Bool) (digits : Nat) (exponent : Int) : Binary64 :=
  let size : Int := (digits.log2 : Int) * 30103 / 100000 + exponent
  if digits = 0 ∨ size < -400 then pack negative 0 0
  else if 400 < size then infinite negative
  else ofRatio negative (digits * Nat.pow 10 exponent.toNat) (Nat.pow 10 (-exponent).toNat)

end Binary64

end DeclCatalogue
