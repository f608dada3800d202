import DeclCatalogue.Json.Reader
import DeclCatalogue.Text.Blank
import DeclCatalogue.Validation

/-!
# Integers in settings

An integer in settings is a number without a fraction, a truth value, or a text. A text may have
white space around it, a sign, zeros in front, single underscores between its digits, and a
fraction of zeros. A minus sign may stand before the zeros in front or behind them.
-/

namespace DeclCatalogue.Checked

/-- A text that starts with a zero without its leading zeros and the underscores among them;
`previous` is the last of these. The last zero is kept where no other digit follows. -/
def afterZeros (previous : Char) : List Char → Option (List Char)
  | [] => some [previous]
  | c :: rest =>
    if c = '0' ∨ c = '_' then afterZeros c rest
    else if Json.isAsciiDigit c ∨ c = '-' then some (c :: rest)
    else if c = '.' then some (previous :: c :: rest)
    else none

/-- A text that starts with a digit or a minus sign without its leading zeros. -/
def withoutZeros : List Char → Option (List Char)
  | [] => none
  | c :: rest =>
    if c = '0' then afterZeros c rest
    else if Json.isAsciiDigit c ∨ c = '-' then some (c :: rest)
    else none

/-- A text without its fraction, if the fraction has digits and all of them are zero. -/
def withoutFraction (cs : List Char) : List Char :=
  let fraction := (cs.dropWhile (· ≠ '.')).drop 1
  if !fraction.isEmpty && fraction.all (· = '0') then cs.takeWhile (· ≠ '.') else cs

/-- Whether two underscores stand side by side. -/
def hasDoubleUnderscore : List Char → Bool
  | '_' :: '_' :: _ => true
  | _ :: rest => hasDoubleUnderscore rest
  | [] => false

/-- A text without its underscores, which stand neither side by side nor at an end. -/
def withoutUnderscores (cs : List Char) : Option (List Char) :=
  if cs.head? = some '_' || cs.getLast? = some '_' || hasDoubleUnderscore cs then none
  else some (cs.filter (· ≠ '_'))

/-- A text without a plus sign at its front, behind which no other sign may stand. -/
def withoutPlus : List Char → Option (List Char)
  | '+' :: '-' :: _ => none
  | '+' :: rest => some rest
  | cs => some cs

/-- The integer of a sequence of digits with or without a minus sign before it. -/
def signedDigits (cs : List Char) : Option Int :=
  let negative := decide (cs.head? = some '-')
  let digits := if negative then cs.drop 1 else cs
  if digits.isEmpty || !digits.all Json.isAsciiDigit then none
  else some (Binary64.signed negative (Json.digitsValue digits))

/-- The integer that a text without white space around it stands for. -/
def integerOfText (cs : List Char) : Option Int := do
  let unsigned ← withoutPlus cs
  let significant ← withoutZeros unsigned
  let plain ← withoutUnderscores (withoutFraction significant)
  signedDigits plain

/-- The longest text that is read as an integer, in bytes. -/
def maxIntegerText : Nat := 4300

/-- An integer from a text. -/
def integerText (s : String) : Checked Int :=
  if !Text.isWellFormed s then fail .notUnicode
  else if maxIntegerText < (Text.released s).utf8ByteSize then fail .numeralTooLong
  else
    match integerOfText (Text.trim Text.isSpace s.toList) with
    | some n => .valid n
    | none => fail .badNumeral

/-- An integer from a floating-point number, whose magnitude has to fit into a signed word. -/
def integerReal (x : Binary64) : Checked Int :=
  match x.integer? with
  | some n => if fitsWord n.natAbs then .valid n else fail .numeralTooLong
  | none =>
    match x.truncate with
    | some _ => fail .fractional
    | none => fail .notFinite

/-- An integer. -/
def integer : Json → Checked Int
  | .int n => .valid n
  | .bool b => .valid (if b then 1 else 0)
  | .real x => integerReal x
  | .str s => integerText s
  | _ => fail .notInteger

end DeclCatalogue.Checked
