import LayeredProfiles.Json.Basic

set_option autoImplicit false

/-!
# Writing documents

The compact form has no space between the tokens; the indented form puts every item and field on
a line of its own, two spaces deeper than the bracket around it. In both, an object's fields stand
in their order, and a string escapes the quote, the backslash and the control characters only.

## Main definitions

* `Json.compact`, `Json.pretty` — the characters of a document in the two forms.
* `Json.toText`, `Json.toPrettyText` — the same as strings.
-/

namespace LayeredProfiles.Json

/-- A digit in base sixteen, in lower case. -/
def hexDigit (n : Nat) : Char :=
  if n < 10 then Char.ofNat (48 + n) else Char.ofNat (87 + n)

/-- A character inside a string. -/
def escape (c : Char) : List Char :=
  if c = '"' then ['\\', '"']
  else if c = '\\' then ['\\', '\\']
  else if c.toNat < 32 then
    match c.toNat with
    | 8 => ['\\', 'b']
    | 9 => ['\\', 't']
    | 10 => ['\\', 'n']
    | 12 => ['\\', 'f']
    | 13 => ['\\', 'r']
    | n => ['\\', 'u', '0', '0', hexDigit (n / 16), hexDigit (n % 16)]
  else [c]

/-- A string in its quotes. -/
def quote (text : String) : List Char :=
  '"' :: text.toList.flatMap escape ++ ['"']

/-- A whole number in base ten. -/
def integerText (i : Int) : List Char :=
  if i < 0 then '-' :: Nat.toDigits 10 i.natAbs else Nat.toDigits 10 i.natAbs

/-- The start of a line at a depth. -/
def newLine (depth : Nat) : List Char :=
  '\n' :: List.replicate (2 * depth) ' '

/-! ## Compact form -/

mutual

/-- A document without spaces. -/
def compact : Json → List Char
  | .null => ['n', 'u', 'l', 'l']
  | .bool true => ['t', 'r', 'u', 'e']
  | .bool false => ['f', 'a', 'l', 's', 'e']
  | .integer i => integerText i
  | .double x => x.text
  | .text s => quote s
  | .array [] => ['[', ']']
  | .array (item :: rest) => '[' :: compact item ++ compactItems rest
  | .object [] => ['{', '}']
  | .object ((key, value) :: rest) => '{' :: quote key ++ ':' :: compact value ++ compactFields rest

/-- The items after the first, with the closing bracket. -/
def compactItems : List Json → List Char
  | [] => [']']
  | item :: rest => ',' :: compact item ++ compactItems rest

/-- The fields after the first, with the closing bracket. -/
def compactFields : List (String × Json) → List Char
  | [] => ['}']
  | (key, value) :: rest => ',' :: quote key ++ ':' :: compact value ++ compactFields rest

end

/-! ## Indented form -/

mutual

/-- A document whose closing brackets stand at `depth`. -/
def pretty (depth : Nat) : Json → List Char
  | .null => ['n', 'u', 'l', 'l']
  | .bool true => ['t', 'r', 'u', 'e']
  | .bool false => ['f', 'a', 'l', 's', 'e']
  | .integer i => integerText i
  | .double x => x.text
  | .text s => quote s
  | .array [] => ['[', ']']
  | .array (item :: rest) =>
    '[' :: newLine (depth + 1) ++ pretty (depth + 1) item ++ prettyItems depth rest
  | .object [] => ['{', '}']
  | .object ((key, value) :: rest) =>
    '{' :: newLine (depth + 1) ++ quote key ++ ':' :: ' ' :: pretty (depth + 1) value ++
      prettyFields depth rest

/-- The items after the first, with the closing bracket. -/
def prettyItems (depth : Nat) : List Json → List Char
  | [] => newLine depth ++ [']']
  | item :: rest =>
    ',' :: newLine (depth + 1) ++ pretty (depth + 1) item ++ prettyItems depth rest

/-- The fields after the first, with the closing bracket. -/
def prettyFields (depth : Nat) : List (String × Json) → List Char
  | [] => newLine depth ++ ['}']
  | (key, value) :: rest =>
    ',' :: newLine (depth + 1) ++ quote key ++ ':' :: ' ' :: pretty (depth + 1) value ++
      prettyFields depth rest

end

/-- A document in compact form. -/
def toText (document : Json) : String :=
  String.ofList document.compact

/-- A document in indented form. -/
def toPrettyText (document : Json) : String :=
  String.ofList (document.pretty 0)

end LayeredProfiles.Json
