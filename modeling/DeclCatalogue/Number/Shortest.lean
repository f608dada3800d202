import DeclCatalogue.Number.Binary64

/-!
# Shortest decimal text

A binary64 number is written with the fewest digits that read back as the same number, and among
numerals of that many digits with the one nearest to it. `shortest` finds the digits in exact
integer arithmetic; `FloatLayout` says how digits and exponent are set out, and `Binary64.text`
puts both together.
-/

namespace DeclCatalogue

namespace Binary64

/-- The positive number `digits · 10 ^ exponent`. -/
structure Decimal where
  digits : Nat
  exponent : Int
  deriving DecidableEq, Repr

/-- How many decimal digits a natural has. -/
def digitCount (n : Nat) : Nat :=
  (Nat.toDigits 10 n).length

/-- The exponent `e` with `10 ^ e ≤ numerator / denominator < 10 ^ (e + 1)`, for a positive
quotient. -/
def decimalExponent (numerator denominator : Nat) : Int :=
  if denominator ≤ numerator then (digitCount (numerator / denominator) : Int) - 1
  else
    let count := digitCount (denominator / numerator)
    if denominator ≤ numerator * Nat.pow 10 (count - 1) then 1 - (count : Int) else -(count : Int)

/-- The numbers that round to a given one: all between two bounds over a common denominator, the
bounds themselves included when the significand is even. -/
structure Neighbourhood where
  low : Nat
  mid : Nat
  high : Nat
  denominator : Nat
  closed : Bool

/-- Half a unit in the last place on both sides, a quarter below a power of two. -/
def neighbourhood (significand : Nat) (exponent : Int) : Neighbourhood :=
  let unit := Nat.pow 2 (exponent - 2).toNat
  let below := if significand = leadingBit ∧ exponent ≠ -1074 then 1 else 2
  { low := (4 * significand - below) * unit
    mid := 4 * significand * unit
    high := (4 * significand + 2) * unit
    denominator := Nat.pow 2 (2 - exponent).toNat
    closed := significand % 2 = 0 }

/-- Whether `digits · 10 ^ exponent` lies in the neighbourhood. -/
def Neighbourhood.holds (around : Neighbourhood) (d : Decimal) : Bool :=
  let point := d.digits * Nat.pow 10 d.exponent.toNat * around.denominator
  let scale := Nat.pow 10 (-d.exponent).toNat
  if around.closed then
    around.low * scale ≤ point && point ≤ around.high * scale
  else
    around.low * scale < point && point < around.high * scale

/-- The point of the decimal grid `10 ^ exponent` that reads back and is nearest to the middle. -/
def Neighbourhood.onGrid? (around : Neighbourhood) (exponent : Int) : Option Decimal :=
  let num := around.mid * Nat.pow 10 (-exponent).toNat
  let den := around.denominator * Nat.pow 10 exponent.toNat
  let lower : Decimal := ⟨num / den, exponent⟩
  let upper : Decimal := ⟨num / den + 1, exponent⟩
  match around.holds lower, around.holds upper with
  | true, true =>
    let twice := 2 * (num % den)
    if twice < den ∨ (twice = den ∧ lower.digits % 2 = 0) then some lower else some upper
  | true, false => some lower
  | false, true => some upper
  | false, false => none

/-- The fewest digits that read back: the grids of one, two, up to seventeen digits are tried in
turn, and the last always has a point that reads back. -/
def shortest (significand : Nat) (exponent : Int) : Decimal :=
  let around := neighbourhood significand exponent
  let leading := decimalExponent around.mid around.denominator
  let grids := (List.range 17).map fun (n : Nat) => leading - (n : Int)
  (grids.findSome? around.onGrid?).getD ⟨0, 0⟩

end Binary64

/-- How the digits of a number are set out. -/
structure FloatLayout where
  /-- The least exponent of the leading digit that is written without an exponent. -/
  positionalFrom : Int
  /-- The least exponent of the leading digit that is again written with an exponent. -/
  positionalBelow : Int
  /-- Exponents are padded with zeros to this many digits. -/
  exponentDigits : Nat
  /-- The text of positive infinity. -/
  infinity : String
  /-- The text of a pattern that stands for no number. -/
  notANumber : String

namespace FloatLayout

/-- `n` in decimal digits. -/
def natDigits (n : Nat) : List Char :=
  Nat.toDigits 10 n

/-- The digits with a point after the first `whole` of them; zeros fill both sides. -/
def positional (digits : List Char) (whole : Int) : List Char :=
  if whole ≤ 0 then
    ['0', '.'] ++ List.replicate (-whole).toNat '0' ++ digits
  else
    let count := whole.toNat
    let before := digits.take count ++ List.replicate (count - digits.length) '0'
    let after := digits.drop count
    before ++ ['.'] ++ (if after.isEmpty then ['0'] else after)

/-- The first digit, a point and the others if there are any, and the exponent with its sign. -/
def scientific (layout : FloatLayout) (digits : List Char) (exponent : Int) : List Char :=
  let lead := digits.take 1
  let rest := digits.drop 1
  let magnitude := natDigits exponent.natAbs
  let padding := List.replicate (layout.exponentDigits - magnitude.length) '0'
  lead ++ (if rest.isEmpty then [] else '.' :: rest)
    ++ ['e', if exponent < 0 then '-' else '+'] ++ padding ++ magnitude

/-- The text of a positive decimal number; trailing zeros of its digits are not written. -/
def decimal (layout : FloatLayout) (d : Binary64.Decimal) : List Char :=
  let all := natDigits d.digits
  let digits := (all.reverse.dropWhile (· = '0')).reverse
  let exponent := d.exponent + (all.length : Int) - 1
  if layout.positionalFrom ≤ exponent ∧ exponent < layout.positionalBelow then
    positional digits (exponent + 1)
  else scientific layout digits exponent

end FloatLayout

/-- The text of a number in the given layout. Zero keeps its sign. -/
def Binary64.text (x : Binary64) (layout : FloatLayout) : String :=
  match x.value with
  | .notANumber => layout.notANumber
  | .infinite negative => (if negative then "-" else "") ++ layout.infinity
  | .finite negative significand exponent =>
    let sign := if negative then ['-'] else []
    let body :=
      if significand = 0 then ['0', '.', '0']
      else layout.decimal (shortest significand exponent)
    String.ofList (sign ++ body)

end DeclCatalogue
