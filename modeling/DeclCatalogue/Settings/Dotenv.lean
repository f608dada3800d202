import DeclCatalogue.Text.Blank

/-!
# Variable files

The variables that a settings file sets, one to a line, as in `export NAME = 'value' # comment`. A
value may stand in single or double quotes and may then go on over several lines; without quotes it
ends at a comment or at the end of the line. A line that is neither a variable nor a comment is
passed over. A name in braces behind a dollar sign stands, inside a value, for the value of a
variable that was set before, in the file or in the environment.
-/

namespace DeclCatalogue.Dotenv

/-- Names of variables with the values that are given to them; a name can stand without a value. -/
abbrev Assignments := List (String × Option String)

/-- What a step reads from the front of a text and the rest of the text; or, if it fails, the rest
from where it failed on. -/
abbrev Step (α : Type) := Except (List Char) (α × List Char)

/-- A blank that does not end the line. -/
def isInlineBlank (c : Char) : Bool :=
  Text.isBlank c && c ≠ '\n' && c ≠ '\r'

/-- A text with every end of line written as one character. -/
def normalizeLines : List Char → List Char
  | '\r' :: '\n' :: rest => '\n' :: normalizeLines rest
  | '\r' :: rest => '\n' :: normalizeLines rest
  | c :: rest => c :: normalizeLines rest
  | [] => []

/-- The text after the word `export` and the blanks behind it, if it starts so. -/
def afterExport (cs : List Char) : List Char :=
  let word := "export".toList
  let rest := cs.drop word.length
  if word.isPrefixOf cs && rest.head?.any isInlineBlank then rest.dropWhile isInlineBlank else cs

/-- The name of a variable; none where a comment starts. -/
def readKey (cs : List Char) : Step (Option String) :=
  match cs with
  | '#' :: _ => .ok (none, cs)
  | '\'' :: rest =>
    let name := rest.takeWhile (· ≠ '\'')
    let after := rest.drop name.length
    if name.isEmpty || after.isEmpty then .error cs
    else .ok (some (String.ofList name), after.drop 1)
  | _ =>
    let name := cs.takeWhile fun c => c ≠ '=' && c ≠ '#' && !Text.isBlank c
    if name.isEmpty then .error cs else .ok (some (String.ofList name), cs.drop name.length)

/-- Splits a text at the first quote without a backslash before it, `previous` being the character
before the text. -/
def atPlainQuote (quote previous : Char) : List Char → Option (List Char × List Char)
  | [] => none
  | c :: rest =>
    if c = quote ∧ previous ≠ '\\' then some ([], rest)
    else (atPlainQuote quote c rest).map fun r => (c :: r.1, r.2)

/-- Splits a text at its last quote. -/
def atLastQuote (quote : Char) : List Char → Option (List Char × List Char)
  | [] => none
  | c :: rest =>
    match atLastQuote quote rest with
    | some r => some (c :: r.1, r.2)
    | none => if c = quote then some ([], rest) else none

/-- The inside of a quoted text: up to the first quote without a backslash before it, or else up to
the last quote. -/
def readQuoted (quote : Char) (cs : List Char) : Option (List Char × List Char) :=
  atPlainQuote quote quote cs <|> atLastQuote quote cs

/-- The character that an escape in double quotes stands for. -/
def escaped? (c : Char) : Option Char :=
  if c = '\\' ∨ c = '\'' ∨ c = '"' then some c
  else if c = 'a' then some (Char.ofNat 7)
  else if c = 'b' then some (Char.ofNat 8)
  else if c = 'f' then some (Char.ofNat 12)
  else if c = 'n' then some '\n'
  else if c = 'r' then some '\r'
  else if c = 't' then some '\t'
  else if c = 'v' then some (Char.ofNat 11)
  else none

/-- A text with its escapes replaced; in single quotes only a backslash and a quote are escaped. -/
def unescape (quote : Char) : List Char → List Char
  | '\\' :: c :: rest =>
    let known := if quote = '"' then escaped? c
      else if c = '\\' ∨ c = '\'' then some c else none
    match known with
    | some d => d :: unescape quote rest
    | none => '\\' :: unescape quote (c :: rest)
  | c :: rest => c :: unescape quote rest
  | [] => []
  termination_by cs => cs.length

/-- A text up to the first blanks with a number sign behind them. -/
def beforeComment : List Char → List Char
  | [] => []
  | c :: rest =>
    if Text.isBlank c && (rest.dropWhile Text.isBlank).head? = some '#' then []
    else c :: beforeComment rest

/-- The value of a variable, after its equals sign and the blanks behind that. -/
def readValue (cs : List Char) : Step String :=
  match cs with
  | [] => .ok ("", cs)
  | c :: rest =>
    if c = '\n' then .ok ("", cs)
    else if c = '\'' ∨ c = '"' then
      match readQuoted c rest with
      | some (inside, after) => .ok (String.ofList (unescape c inside), after)
      | none => .error cs
    else
      let line := cs.takeWhile (· ≠ '\n')
      .ok (String.ofList (Text.trimEnd Text.isBlank (beforeComment line)), cs.drop line.length)

/-- The text after a comment and the end of the line; fails if anything else stands there. -/
def endLine (cs : List Char) : Except (List Char) (List Char) :=
  let blankless := cs.dropWhile isInlineBlank
  let after := if blankless.head? = some '#' then blankless.dropWhile (· ≠ '\n') else cs
  match after.dropWhile isInlineBlank with
  | [] => .ok []
  | c :: rest => if c = '\n' then .ok rest else .error after

/-- Reads the variable at the front of a text; a variable without an equals sign has no value. -/
def readVariable (cs : List Char) :
    Except (List Char) (Option (String × Option String) × List Char) := do
  let (key, rest) ← readKey (afterExport cs)
  let rest := rest.dropWhile isInlineBlank
  let (value, rest) ← match rest with
    | '=' :: rest =>
      (readValue (rest.dropWhile isInlineBlank)).map fun r => (some r.1, r.2)
    | _ => .ok (none, rest)
  let rest ← endLine rest
  return (key.map fun key => (key, value), rest)

/-- Reads variables up to the end of a text. Each one takes at least one character, so the fuel of
one for each character is enough. -/
def readVariables : Nat → List Char → Assignments
  | 0, _ => []
  | fuel + 1, cs =>
    match cs.dropWhile Text.isBlank with
    | [] => []
    | cs =>
      match readVariable cs with
      | .ok (found, rest) => found.toList ++ readVariables fuel rest
      | .error rest => readVariables fuel ((rest.dropWhile (· ≠ '\n')).drop 1)

/-! ## References to other variables -/

/-- What a reference is replaced by: the value of the variable with its name, or else what it gives
as a default. -/
structure Reference where
  name : String
  default : String

/-- Reads a reference after its dollar sign and opening brace. -/
def readReference (cs : List Char) : Option (Reference × List Char) :=
  let name := cs.takeWhile fun c => c ≠ '\x7d' && c ≠ ':'
  match cs.drop name.length with
  | ':' :: '-' :: rest =>
    let default := rest.takeWhile (· ≠ '\x7d')
    match rest.drop default.length with
    | [] => none
    | _ :: rest => some (⟨String.ofList name, String.ofList default⟩, rest)
  | c :: rest => if c = '\x7d' then some (⟨String.ofList name, ""⟩, rest) else none
  | [] => none

/-- A value with its references replaced. The fuel is the length of the value. -/
def expand (known : Assignments) : Nat → List Char → List Char
  | 0, cs => cs
  | fuel + 1, cs =>
    match cs with
    | [] => []
    | '$' :: c :: rest =>
      match if c = '\x7b' then readReference rest else none with
      | some (reference, after) =>
        let value := match known.find? fun v => v.1 = reference.name with
          | some v => v.2.getD ""
          | none => reference.default
        value.toList ++ expand known fuel after
      | none => '$' :: expand known fuel (c :: rest)
    | c :: rest => c :: expand known fuel rest

/-- The names that a value refers to. The fuel is the length of the value. -/
def referencesIn : Nat → List Char → List String
  | 0, _ => []
  | fuel + 1, cs =>
    match cs with
    | [] => []
    | '$' :: c :: rest =>
      match if c = '\x7b' then readReference rest else none with
      | some (reference, after) => reference.name :: referencesIn fuel after
      | none => referencesIn fuel (c :: rest)
    | _ :: rest => referencesIn fuel rest

/-- The names that the values of some variables refer to. -/
def referencesOf (assigned : Assignments) : List String :=
  assigned.flatMap fun v => (v.2.map fun value => referencesIn value.length value.toList).getD []

/-- Sets a variable in the place where it was set before, or else behind all others. -/
def assign (name : String) (value : Option String) : Assignments → Assignments
  | [] => [(name, value)]
  | v :: rest => if v.1 = name then (name, value) :: rest else v :: assign name value rest

/-- The variables with the references in their values replaced, added to those already found. A
reference is to a variable set before it, in the file or else in the environment. -/
def resolve (environment : List (String × String)) :
    Assignments → Assignments → Assignments
  | found, [] => found
  | found, (name, value) :: rest =>
    let known := found ++ environment.map fun v => (v.1, some v.2)
    let value := value.map fun v => String.ofList (expand known v.length v.toList)
    resolve environment (assign name value found) rest

/-- The variables that a settings file sets, each once, with the value that it is given last. -/
def read (environment : List (String × String)) (text : String) : Assignments :=
  let cs := normalizeLines text.toList
  resolve environment [] (readVariables (cs.length + 1) cs)

/-- The names that the values of a file of variables refer to. -/
def references (text : String) : List String :=
  let cs := normalizeLines text.toList
  referencesOf (readVariables (cs.length + 1) cs)

end DeclCatalogue.Dotenv
