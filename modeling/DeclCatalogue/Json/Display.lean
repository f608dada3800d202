import DeclCatalogue.Json.Writer
import DeclCatalogue.Text.Printable

/-!
# Values inside messages and names

The text that a value has when it stands in a message or inside a dotted name: a text stands for
itself, and every other value is spelled out, with the texts inside a list or an object in quotes.
-/

namespace DeclCatalogue.Json

/-- Numbers in messages are set out as in documents, up to the names of the infinite ones. -/
def messageFloat : FloatLayout :=
  { documentFloat with infinity := "inf", notANumber := "nan" }

/-- A character, as it is held, as it stands between the given quotes. -/
def displayChar (quote : Char) (held : List Char) : List Char :=
  if held = [quote] ∨ held = ['\\'] then '\\' :: held
  else if held = ['\n'] then ['\\', 'n']
  else if held = ['\r'] then ['\\', 'r']
  else if held = ['\t'] then ['\\', 't']
  else if held.all Text.isPrintable then held
  else
    let code := Text.codePoint held
    if code < 0x100 then ['\\', 'x'] ++ Text.hexDigits 2 code
    else if code < 0x10000 then ['\\', 'u'] ++ Text.hexDigits 4 code
    else ['\\', 'U'] ++ Text.hexDigits 8 code

/-- A text in single quotes, or in double quotes if it holds single ones and no double ones. -/
def displayQuoted (s : String) : String :=
  let cs := s.toList
  let quote := if cs.contains '\'' && !cs.contains '"' then '"' else '\''
  String.ofList (quote :: (Text.characters cs).flatMap (displayChar quote) ++ [quote])

mutual
/-- The text of a value inside a list or an object. -/
def displayInner : Json → String
  | .null => "None"
  | .bool b => if b then "True" else "False"
  | .int n => toString n
  | .real x => x.text messageFloat
  | .str s => displayQuoted s
  | .arr items => "[" ++ String.intercalate ", " (displayItems items) ++ "]"
  | .obj fields => "\x7b" ++ String.intercalate ", " (displayFields fields) ++ "\x7d"

/-- The texts of the items of a list. -/
def displayItems : List Json → List String
  | [] => []
  | v :: rest => displayInner v :: displayItems rest

/-- The texts of the fields of an object. -/
def displayFields : Fields → List String
  | [] => []
  | (k, v) :: rest => (displayQuoted k ++ ": " ++ displayInner v) :: displayFields rest
end

/-- The text of a value in a message or a name. -/
def display : Json → String
  | .str s => s
  | v => displayInner v

@[simp] theorem display_str (s : String) : display (.str s) = s := rfl

end DeclCatalogue.Json
