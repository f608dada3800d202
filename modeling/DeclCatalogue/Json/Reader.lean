import DeclCatalogue.Json.Basic
import DeclCatalogue.Text.Surrogate

/-!
# Reading JSON

`Json.read` reads a whole text, held as all texts are, as one JSON value. Of two fields of one name
in an object the later value stands in the place of the earlier; a number with a fraction or an
exponent is read as a floating-point number and every other one as an integer of any size, up to a
limit on its digits.
-/

namespace DeclCatalogue.Json

/-- Why a text is not read. -/
inductive ReadFault where
  /-- The text is not one JSON value. -/
  | malformed
  /-- An integer has more digits than are read. -/
  | numeralTooLong
  deriving DecidableEq, Repr

/-- The longest integer that is read, in digits. -/
def maxIntegerDigits : Nat := 4300

/-- What is read from the front of a text, and the rest of the text. -/
abbrev Reading (α : Type) := Except ReadFault (α × List Char)

/-- The text from its first character that is no white space on. -/
def skipSpace (cs : List Char) : List Char :=
  cs.dropWhile fun c => c = ' ' || c = '\t' || c = '\n' || c = '\r'

/-- The value of a hexadecimal digit. -/
def hexValue? (c : Char) : Option Nat :=
  if '0' ≤ c ∧ c ≤ '9' then some (c.toNat - 48)
  else if 'a' ≤ c ∧ c ≤ 'f' then some (c.toNat - 87)
  else if 'A' ≤ c ∧ c ≤ 'F' then some (c.toNat - 55)
  else none

/-- The number written by four hexadecimal digits. -/
def hexUnit? (a b c d : Char) : Option Nat := do
  let a ← hexValue? a
  let b ← hexValue? b
  let c ← hexValue? c
  let d ← hexValue? d
  return ((a * 16 + b) * 16 + c) * 16 + d

/-- The character of a short escape. -/
def shortEscape? (c : Char) : Option Char :=
  if c = '"' ∨ c = '\\' ∨ c = '/' then some c
  else if c = 'b' then some (Char.ofNat 8)
  else if c = 'f' then some (Char.ofNat 12)
  else if c = 'n' then some '\n'
  else if c = 'r' then some '\r'
  else if c = 't' then some '\t'
  else none

/-- What was read, with the first half of a pair that is not followed by the second. -/
def alone (high : Option Nat) (read : List Char) : List Char :=
  match high with
  | some unit => Text.standIn unit :: read
  | none => read

/-- Reads the inside of a text up to its closing quote. If the escape before was the first half of a
pair, it waits in `high` for the second half. -/
def readText (high : Option Nat) (read : List Char) : List Char → Reading String
  | [] => .error .malformed
  | '\\' :: 'u' :: a :: b :: c :: d :: rest =>
    match hexUnit? a b c d with
    | none => .error .malformed
    | some n =>
      if Text.isLowSurrogate n then
        match high with
        | some h => readText none ((Text.hold (Text.pairChar h n)).reverse ++ read) rest
        | none => readText none (Text.standIn n :: read) rest
      else
        let read := alone high read
        if Text.isHighSurrogate n then readText (some n) read rest
        else readText none (Char.ofNat n :: read) rest
  | c :: rest =>
    let read := alone high read
    if c = '"' then .ok (String.ofList read.reverse, rest)
    else if c = '\\' then
      match rest with
      | e :: rest =>
        match shortEscape? e with
        | some c => readText none (c :: read) rest
        | none => .error .malformed
      | [] => .error .malformed
    else if c.toNat < 0x20 then .error .malformed
    else readText none (c :: read) rest

/-- Whether a character is one of the ten ASCII digits. -/
def isAsciiDigit (c : Char) : Bool :=
  '0' ≤ c && c ≤ '9'

/-- The number that a sequence of ASCII digits stands for. -/
def digitsValue (cs : List Char) : Nat :=
  cs.foldl (fun (n : Nat) c => n * 10 + (c.toNat - 48)) 0

/-- The digits of a fraction, after its point; none if there is no fraction. -/
def readFraction (cs : List Char) : List Char × List Char :=
  match cs with
  | '.' :: rest =>
    let digits := rest.takeWhile isAsciiDigit
    if digits.isEmpty then ([], cs) else (digits, rest.dropWhile isAsciiDigit)
  | _ => ([], cs)

/-- The value of an exponent; none if there is no exponent. -/
def readExponent (cs : List Char) : Option Int × List Char :=
  match cs with
  | e :: rest =>
    if e = 'e' ∨ e = 'E' then
      let negative := rest.head? = some '-'
      let unsigned := if negative ∨ rest.head? = some '+' then rest.tail else rest
      let digits := unsigned.takeWhile isAsciiDigit
      if digits.isEmpty then (none, cs)
      else (some (Binary64.signed negative (digitsValue digits)),
        unsigned.dropWhile isAsciiDigit)
    else (none, cs)
  | [] => (none, cs)

/-- Reads a number without its sign. A leading zero stands alone. -/
def readNumber (negative : Bool) (cs : List Char) : Reading Json :=
  let whole := if cs.head? = some '0' then ['0'] else cs.takeWhile isAsciiDigit
  if whole.isEmpty then .error .malformed
  else
    let fraction := readFraction (cs.drop whole.length)
    let exponent := readExponent fraction.2
    if fraction.1.isEmpty && exponent.1.isNone then
      if maxIntegerDigits < whole.length then .error .numeralTooLong
      else .ok (.int (Binary64.signed negative (digitsValue whole)), exponent.2)
    else
      let scale := exponent.1.getD 0 - (fraction.1.length : Int)
      .ok (.real (Binary64.ofDecimal negative (digitsValue (whole ++ fraction.1)) scale),
        exponent.2)

/-- The words that stand for values. -/
def words : List (String × Json) :=
  [("null", .null), ("true", .bool true), ("false", .bool false),
   ("NaN", .real ⟨0x7FF8000000000000⟩), ("Infinity", .real (Binary64.infinite false)),
   ("-Infinity", .real (Binary64.infinite true))]

/-- Reads a word or a number. -/
def readPlain (cs : List Char) : Reading Json :=
  match words.find? fun w => w.1.toList.isPrefixOf cs with
  | some w => .ok (w.2, cs.drop w.1.length)
  | none =>
    match cs with
    | '-' :: rest => readNumber true rest
    | _ => readNumber false cs

mutual
/-- Reads a value. The fuel bounds the number of values, items and fields still to be read. -/
def readValue : Nat → List Char → Except ReadFault (Json × List Char)
  | 0, _ => .error .malformed
  | fuel + 1, cs =>
    match cs with
    | '"' :: rest => (readText none [] rest).map fun r => (.str r.1, r.2)
    | '[' :: rest =>
      match skipSpace rest with
      | ']' :: rest => .ok (.arr [], rest)
      | rest => (readItems fuel rest).map fun r => (.arr r.1, r.2)
    | c :: rest =>
      if c = '\x7b' then
        match skipSpace rest with
        | [] => .error .malformed
        | c :: tail =>
          if c = '\x7d' then .ok (.obj [], tail)
          else (readFields fuel [] (c :: tail)).map fun r => (.obj r.1, r.2)
      else readPlain cs
    | [] => .error .malformed

/-- Reads the items of a list up to its closing bracket. -/
def readItems : Nat → List Char → Except ReadFault (List Json × List Char)
  | 0, _ => .error .malformed
  | fuel + 1, cs => do
    let (v, rest) ← readValue fuel cs
    match skipSpace rest with
    | ']' :: rest => return ([v], rest)
    | ',' :: rest =>
      let (vs, rest) ← readItems fuel (skipSpace rest)
      return (v :: vs, rest)
    | _ => throw .malformed

/-- Reads the fields of an object up to its closing brace, after those already read. -/
def readFields : Nat → Fields → List Char → Except ReadFault (Fields × List Char)
  | 0, _, _ => .error .malformed
  | fuel + 1, fields, cs => do
    match cs with
    | '"' :: rest =>
      let (key, rest) ← readText none [] rest
      match skipSpace rest with
      | ':' :: rest =>
        let (v, rest) ← readValue fuel (skipSpace rest)
        let fields := setField key v fields
        match skipSpace rest with
        | c :: rest =>
          if c = '\x7d' then return (fields, rest)
          else if c = ',' then readFields fuel fields (skipSpace rest)
          else throw .malformed
        | [] => throw .malformed
      | _ => throw .malformed
    | _ => throw .malformed
end

/-- Reads a whole text as one value. -/
def read (text : String) : Except ReadFault Json := do
  let cs := text.toList
  let (v, rest) ← readValue (2 * cs.length + 2) (skipSpace cs)
  if (skipSpace rest).isEmpty then return v else throw .malformed

end DeclCatalogue.Json
