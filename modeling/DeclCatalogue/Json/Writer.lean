import DeclCatalogue.Json.Basic
import DeclCatalogue.Number.Shortest
import DeclCatalogue.Text.Surrogate

/-!
# Writing JSON

The text of a JSON value in plain ASCII: every other character is written as an escape, one above
U+FFFF as a pair of escapes. `Json.compact` writes on one line, `Json.indented` puts every item
and field on a line of its own.
-/

namespace DeclCatalogue.Json

/-- Floating-point numbers are positional below `10 ^ 16` and always show that they are no
integers. -/
def documentFloat : FloatLayout :=
  { positionalFrom := -4
    positionalBelow := 16
    exponentDigits := 2
    infinity := "Infinity"
    notANumber := "NaN" }

/-- The escape of a sixteen bit unit. -/
def unitEscape (n : Nat) : List Char :=
  ['\\', 'u'] ++ Text.hexDigits 4 n

/-- The escape of a code point that has a short one. -/
def shortEscapes : List (Nat × Char) :=
  [(8, 'b'), (9, 't'), (10, 'n'), (12, 'f'), (13, 'r'), (34, '"'), (92, '\\')]

/-- A code point as it stands in a written text. -/
def escapeCode (code : Nat) : List Char :=
  match shortEscapes.lookup code with
  | some c => ['\\', c]
  | none =>
    if 0x20 ≤ code ∧ code < 0x7F then [Char.ofNat code]
    else if code < 0x10000 then unitEscape code
    else
      let above := code - 0x10000
      unitEscape (0xD800 + above / 0x400) ++ unitEscape (0xDC00 + above % 0x400)

/-- A text in double quotes. -/
def quoted (s : String) : String :=
  String.ofList ('"' ::
    (Text.characters s.toList).flatMap (fun held => escapeCode (Text.codePoint held)) ++ ['"'])

/-- How the items of a list or the fields of an object are set apart. -/
structure Spacing where
  /-- What follows the opening bracket and precedes the first entry. -/
  opening : String
  /-- What stands between two entries. -/
  between : String
  /-- What precedes the closing bracket. -/
  closing : String

/-- Entries in brackets; nothing but the brackets when there are none. -/
def bracketed (spacing : Spacing) (left right : String) (entries : List String) : String :=
  if entries.isEmpty then left ++ right
  else left ++ spacing.opening ++ String.intercalate spacing.between entries
    ++ spacing.closing ++ right

mutual
/-- The text of a value `depth` levels deep, with the spacing of each level. -/
def write (spacing : Nat → Spacing) (depth : Nat) : Json → String
  | .null => "null"
  | .bool b => if b then "true" else "false"
  | .int n => toString n
  | .real x => x.text documentFloat
  | .str s => quoted s
  | .arr items => bracketed (spacing depth) "[" "]" (writeItems spacing (depth + 1) items)
  | .obj fields =>
    bracketed (spacing depth) "\x7b" "\x7d" (writeFields spacing (depth + 1) fields)

/-- The texts of the items of a list. -/
def writeItems (spacing : Nat → Spacing) (depth : Nat) : List Json → List String
  | [] => []
  | v :: rest => write spacing depth v :: writeItems spacing depth rest

/-- The texts of the fields of an object. -/
def writeFields (spacing : Nat → Spacing) (depth : Nat) : Fields → List String
  | [] => []
  | (k, v) :: rest =>
    (quoted k ++ ": " ++ write spacing depth v) :: writeFields spacing depth rest
end

/-- The text of a value on one line. -/
def compact (v : Json) : String :=
  write (fun _ => ⟨"", ", ", ""⟩) 0 v

/-- A new line, indented by a number of levels of `step` blanks. -/
def newLine (step depth : Nat) : String :=
  String.ofList ('\n' :: List.replicate (step * depth) ' ')

/-- The text of a value with every entry on a line of its own. -/
def indented (step : Nat) (v : Json) : String :=
  write (fun depth =>
    ⟨newLine step (depth + 1), "," ++ newLine step (depth + 1), newLine step depth⟩) 0 v

end DeclCatalogue.Json
