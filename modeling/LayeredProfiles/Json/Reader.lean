import LayeredProfiles.Json.Basic

set_option autoImplicit false

/-!
# Reading documents

The reader works on what remains of the text. Each step takes characters off the front, or stops
with a fault that says what was expected and how much of the text was left at that moment; the
line and the column of the fault are worked out from there once, at the end. Columns count bytes.

## Main definitions

* `Json.Defect` — what can be wrong with a text, with its wording.
* `Json.SyntaxError` — a defect with its line and column.
* `Json.parse` — the document that a text holds.

## Implementation notes

Documents nest at most 127 brackets deep, so the depth that is left is the measure of the
recursion. A loop over items or fields is bounded by the length of the text in front of it.

A number keeps the digits that fit 64 bits and counts the others as zeros. Whole numbers that do
not fit, and all numbers with a point or an exponent, become double precision numbers.
-/

namespace LayeredProfiles.Json

/-! ## Defects -/

/-- What can be wrong with a text. -/
inductive Defect where
  /-- The text ends inside a list. -/
  | endInList
  /-- The text ends inside an object. -/
  | endInObject
  /-- The text ends inside a string. -/
  | endInString
  /-- The text ends where a value has to stand. -/
  | endInValue
  /-- A key is not followed by a colon. -/
  | missingColon
  /-- An item is not followed by a comma or the end of the list. -/
  | missingListEnd
  /-- A field is not followed by a comma or the end of the object. -/
  | missingObjectEnd
  /-- A word other than the three that name a value. -/
  | unknownWord
  /-- No value can begin here. -/
  | missingValue
  /-- An escape that strings do not have. -/
  | badEscape
  /-- A number that does not follow the grammar. -/
  | badNumber
  /-- A number too large for double precision. -/
  | numberTooLarge
  /-- A control character that is not escaped. -/
  | controlCharacter
  /-- A key that is not a string. -/
  | keyNotString
  /-- Half of a surrogate pair. -/
  | loneSurrogate
  /-- A comma before a closing bracket. -/
  | trailingComma
  /-- Something follows the document. -/
  | trailingText
  /-- The first half of a surrogate pair is not followed by an escape. -/
  | surrogateCutShort
  /-- Brackets nest too deep. -/
  | tooDeep
deriving DecidableEq, Repr

/-- The wording of a defect. -/
def Defect.wording : Defect → String
  | .endInList => "EOF while parsing a list"
  | .endInObject => "EOF while parsing an object"
  | .endInString => "EOF while parsing a string"
  | .endInValue => "EOF while parsing a value"
  | .missingColon => "expected `:`"
  | .missingListEnd => "expected `,` or `]`"
  | .missingObjectEnd => "expected `,` or `\x7d`"
  | .unknownWord => "expected ident"
  | .missingValue => "expected value"
  | .badEscape => "invalid escape"
  | .badNumber => "invalid number"
  | .numberTooLarge => "number out of range"
  | .controlCharacter => "control character (\\u0000-\\u001F) found while parsing a string"
  | .keyNotString => "key must be a string"
  | .loneSurrogate => "lone leading surrogate in hex escape"
  | .trailingComma => "trailing comma"
  | .trailingText => "trailing characters"
  | .surrogateCutShort => "unexpected end of hex escape"
  | .tooDeep => "recursion limit exceeded"

/-- A defect where it was found: so much of the text was left, and the reader had looked at so many
bytes of it. -/
structure Fault where
  /-- What is wrong. -/
  defect : Defect
  /-- The text that was left. -/
  rest : List Char
  /-- The bytes of it that the reader had taken in. -/
  ahead : Nat
deriving DecidableEq, Repr

/-- A defect with its place. -/
structure SyntaxError where
  /-- What is wrong. -/
  defect : Defect
  /-- The line, from one. -/
  line : Nat
  /-- The bytes of the line up to and including the one at fault. -/
  column : Nat
deriving DecidableEq, Repr

/-- The wording of a defect with its place. -/
def SyntaxError.message (e : SyntaxError) : String :=
  e.defect.wording ++ " at line " ++ toString e.line ++ " column " ++ toString e.column

/-- The number of bytes of a text. -/
def byteCount (input : List Char) : Nat :=
  input.foldl (fun n c => n + c.utf8Size) 0

/-- The line and column reached from a place by going so many bytes forward. -/
def advance : List Char → (bytes line column : Nat) → Nat × Nat
  | [], _, line, column => (line, column)
  | c :: rest, bytes, line, column =>
    if bytes = 0 then (line, column)
    else if c = '\n' then advance rest (bytes - 1) (line + 1) 0
    else advance rest (bytes - c.utf8Size) line (column + min bytes c.utf8Size)

/-- Finds the place of a fault in the text. -/
def Fault.locate (input : List Char) (fault : Fault) : SyntaxError :=
  let seen := byteCount input - byteCount fault.rest + fault.ahead
  let place := advance input seen 1 0
  ⟨fault.defect, place.1, place.2⟩

/-- A reader of documents: it yields a document and what remains of the text. -/
abbrev Reader := List Char → Except Fault (Json × List Char)

/-- Stops at the end of what was read so far. -/
def fail {α : Type} (defect : Defect) (rest : List Char) : Except Fault (α × List Char) :=
  .error ⟨defect, rest, 0⟩

/-- Stops at the next byte. -/
def failAtNext {α : Type} (defect : Defect) (rest : List Char) : Except Fault (α × List Char) :=
  .error ⟨defect, rest, 1⟩

/-- Whether a character may stand between tokens. -/
def isSpace (c : Char) : Bool :=
  c == ' ' || c == '\n' || c == '\t' || c == '\r'

/-- The text without the spaces in front. -/
def skipSpace (input : List Char) : List Char :=
  input.dropWhile isSpace

/-! ## Words -/

/-- Reads the rest of a word. -/
def readWord : (word : List Char) → (value : Json) → Reader
  | [], value, rest => .ok (value, rest)
  | _ :: _, _, [] => fail .endInValue []
  | w :: word, value, c :: rest =>
    if c = w then readWord word value rest else failAtNext .unknownWord (c :: rest)

/-! ## Numbers -/

/-- Whether a character is a digit. -/
def isDigit (c : Char) : Bool :=
  '0' ≤ c && c ≤ '9'

/-- The value of a digit. -/
def digitValue (c : Char) : Nat :=
  c.toNat - 48

/-- The greatest number of 64 bits. -/
def maxWord : Nat := twoTo 64 - 1

/-- Takes digits in while the number fits 64 bits. Yields the number, how many digits were taken,
and what remains. -/
def takeDigits : (number taken : Nat) → List Char → Nat × Nat × List Char
  | number, taken, [] => (number, taken, [])
  | number, taken, c :: rest =>
    if isDigit c && number * 10 + digitValue c ≤ maxWord then
      takeDigits (number * 10 + digitValue c) (taken + 1) rest
    else (number, taken, c :: rest)

/-- A whole number with a sign. -/
def signed (minus : Bool) (n : Nat) : Int :=
  if minus then -n else n

/-- A number whose digits and exponent are known. -/
def finishDouble (negative : Bool) (digits : Nat) (exponent : Int) (rest : List Char) :
    Except Fault (Json × List Char) :=
  match Binary64.ofDecimal? negative digits exponent with
  | some x => .ok (.double x, rest)
  | none => fail .numberTooLarge rest

/-- Reads the digits of an exponent. An exponent that exceeds 31 bits makes any number but zero too
large, or zero if the exponent is negative. -/
def readExponentDigits (negative : Bool) (digits : Nat) (before : Int) (minus : Bool) :
    (exponent : Nat) → List Char → Except Fault (Json × List Char)
  | exponent, [] => finishDouble negative digits (before + signed minus exponent) []
  | exponent, c :: rest =>
    if isDigit c then
      let next := exponent * 10 + digitValue c
      if next < twoTo 31 then readExponentDigits negative digits before minus next rest
      else if digits ≠ 0 && !minus then fail .numberTooLarge rest
      else .ok (.double (Binary64.zero negative), rest.dropWhile isDigit)
    else finishDouble negative digits (before + signed minus exponent) (c :: rest)

/-- Reads an exponent after its letter. -/
def readExponent (negative : Bool) (digits : Nat) (before : Int) (input : List Char) :
    Except Fault (Json × List Char) :=
  let (minus, input) :=
    match input with
    | '+' :: rest => (false, rest)
    | '-' :: rest => (true, rest)
    | _ => (false, input)
  match input with
  | [] => fail .endInValue []
  | c :: rest =>
    if isDigit c then readExponentDigits negative digits before minus (digitValue c) rest
    else failAtNext .badNumber (c :: rest)

/-- Reads what may follow the digits of a number that is not whole: an exponent or nothing. -/
def readScale (negative : Bool) (digits : Nat) (exponent : Int) :
    List Char → Except Fault (Json × List Char)
  | [] => finishDouble negative digits exponent []
  | c :: rest =>
    if c = 'e' ∨ c = 'E' then readExponent negative digits exponent rest
    else finishDouble negative digits exponent (c :: rest)

/-- Reads the digits after a point. -/
def readFraction (negative : Bool) (digits : Nat) (before : Int) (input : List Char) :
    Except Fault (Json × List Char) :=
  let (digits, taken, rest) := takeDigits digits 0 input
  let exponent := before - taken
  match rest with
  | [] => if taken = 0 then fail .endInValue [] else readScale negative digits exponent []
  | c :: _ =>
    if isDigit c then readScale negative digits exponent (rest.dropWhile isDigit)
    else if taken = 0 then failAtNext .badNumber rest
    else readScale negative digits exponent rest

/-- The number with the given digits and neither point nor exponent. -/
def wholeNumber (negative : Bool) (digits : Nat) (rest : List Char) :
    Except Fault (Json × List Char) :=
  if !negative then .ok (.integer digits, rest)
  else if 1 ≤ digits ∧ digits ≤ twoTo 63 then .ok (.integer (signed true digits), rest)
  else finishDouble true digits 0 rest

/-- Reads what may follow the digits before a point. -/
def readAfterWhole (negative : Bool) (digits : Nat) (input : List Char) :
    Except Fault (Json × List Char) :=
  match input with
  | [] => wholeNumber negative digits []
  | c :: rest =>
    if c = '.' then readFraction negative digits 0 rest
    else if c = 'e' ∨ c = 'E' then readExponent negative digits 0 rest
    else if isDigit c then
      let skipped := input.takeWhile isDigit
      match input.dropWhile isDigit with
      | '.' :: rest => readFraction negative digits skipped.length rest
      | rest => readScale negative digits skipped.length rest
    else wholeNumber negative digits input

/-- Reads a number after its sign. -/
def readNumber (negative : Bool) : List Char → Except Fault (Json × List Char)
  | [] => fail .endInValue []
  | c :: rest =>
    if c = '0' then
      match rest with
      | d :: _ => if isDigit d then failAtNext .badNumber rest else readAfterWhole negative 0 rest
      | [] => readAfterWhole negative 0 rest
    else if isDigit c then
      let (digits, _, rest) := takeDigits 0 0 (c :: rest)
      readAfterWhole negative digits rest
    else failAtNext .badNumber (c :: rest)

/-! ## Strings -/

/-- The value of a digit in base sixteen, of either case. -/
def hexValue? (c : Char) : Option Nat :=
  if isDigit c then some (digitValue c)
  else if 'a' ≤ c && c ≤ 'f' then some (c.toNat - 87)
  else if 'A' ≤ c && c ≤ 'F' then some (c.toNat - 55)
  else none

/-- The value of four digits in base sixteen. -/
def hexWord? : List Char → Option Nat
  | [a, b, c, d] => do
    let high := (← hexValue? a) * 16 + (← hexValue? b)
    let low := (← hexValue? c) * 16 + (← hexValue? d)
    return high * 256 + low
  | _ => none

/-- Reads four digits in base sixteen. -/
def readHexWord (input : List Char) : Except Fault (Nat × List Char) :=
  let four := input.take 4
  if byteCount four < 4 then fail .endInString []
  else
    match hexWord? four with
    | some n => .ok (n, input.drop 4)
    | none => .error ⟨.badEscape, input, 4⟩

/-- Reads the second half of a surrogate pair. -/
def readLowSurrogate (high : Nat) : List Char → Except Fault (Char × List Char)
  | [] => fail .endInString []
  | '\\' :: rest =>
    match rest with
    | [] => fail .endInString []
    | 'u' :: rest => do
      let (low, rest) ← readHexWord rest
      if 0xDC00 ≤ low ∧ low ≤ 0xDFFF then
        .ok (Char.ofNat ((high - 0xD800) * 0x400 + (low - 0xDC00) + 0x10000), rest)
      else fail .loneSurrogate rest
    | rest => failAtNext .surrogateCutShort rest
  | rest => failAtNext .surrogateCutShort rest

/-- Reads the character that an escape stands for, after its backslash. -/
def readEscape : List Char → Except Fault (Char × List Char)
  | [] => fail .endInString []
  | c :: rest =>
    if c = '"' ∨ c = '\\' ∨ c = '/' then .ok (c, rest)
    else if c = 'b' then .ok (Char.ofNat 8, rest)
    else if c = 'f' then .ok (Char.ofNat 12, rest)
    else if c = 'n' then .ok ('\n', rest)
    else if c = 'r' then .ok ('\r', rest)
    else if c = 't' then .ok ('\t', rest)
    else if c = 'u' then do
      let (n, rest) ← readHexWord rest
      if 0xDC00 ≤ n ∧ n ≤ 0xDFFF then fail .loneSurrogate rest
      else if 0xD800 ≤ n ∧ n ≤ 0xDBFF then readLowSurrogate n rest
      else .ok (Char.ofNat n, rest)
    else failAtNext .badEscape (c :: rest)

/-- Reads a string after its opening quote. The first argument bounds the number of characters. -/
def readCharacters : Nat → List Char → Except Fault (List Char × List Char)
  | 0, _ => fail .endInString []
  | _ + 1, [] => fail .endInString []
  | fuel + 1, c :: rest =>
    if c = '"' then .ok ([], rest)
    else if c = '\\' then do
      let (d, rest) ← readEscape rest
      let (more, rest) ← readCharacters fuel rest
      .ok (d :: more, rest)
    else if c.toNat < 32 then failAtNext .controlCharacter (c :: rest)
    else do
      let (more, rest) ← readCharacters fuel rest
      .ok (c :: more, rest)

/-- Reads a string after its opening quote. -/
def readString (input : List Char) : Except Fault (String × List Char) := do
  let (characters, rest) ← readCharacters (input.length + 1) input
  .ok (String.ofList characters, rest)

/-! ## Lists and objects -/

/-- Reads the items after the first. The first argument bounds their number. -/
def readItems (value : Reader) : Nat → List Char → Except Fault (List Json × List Char)
  | 0, _ => fail .endInList []
  | fuel + 1, input =>
    match skipSpace input with
    | [] => fail .endInList []
    | ']' :: rest => .ok ([], rest)
    | ',' :: rest =>
      match skipSpace rest with
      | [] => fail .endInValue []
      | ']' :: rest => failAtNext .trailingComma (']' :: rest)
      | rest => do
        let (item, rest) ← value rest
        let (items, rest) ← readItems value fuel rest
        .ok (item :: items, rest)
    | rest => failAtNext .missingListEnd rest

/-- Reads a list after its opening bracket. -/
def readArray (value : Reader) (input : List Char) : Except Fault (Json × List Char) :=
  match skipSpace input with
  | [] => fail .endInList []
  | ']' :: rest => .ok (.array [], rest)
  | rest => do
    let (item, rest) ← value rest
    let (items, rest) ← readItems value (rest.length + 1) rest
    .ok (.array (item :: items), rest)

/-- Reads a field after the opening quote of its key. -/
def readField (value : Reader) (input : List Char) :
    Except Fault ((String × Json) × List Char) := do
  let (key, rest) ← readString input
  match skipSpace rest with
  | [] => fail .endInObject []
  | ':' :: rest => do
    let (v, rest) ← value rest
    .ok ((key, v), rest)
  | rest => failAtNext .missingColon rest

/-- Reads the fields after the first. The first argument bounds their number. -/
def readFields (value : Reader) :
    Nat → List Char → Except Fault (List (String × Json) × List Char)
  | 0, _ => fail .endInObject []
  | fuel + 1, input =>
    match skipSpace input with
    | [] => fail .endInObject []
    | '}' :: rest => .ok ([], rest)
    | ',' :: rest =>
      match skipSpace rest with
      | [] => fail .endInValue []
      | '"' :: rest => do
        let (field, rest) ← readField value rest
        let (fields, rest) ← readFields value fuel rest
        .ok (field :: fields, rest)
      | '}' :: rest => failAtNext .trailingComma ('}' :: rest)
      | rest => failAtNext .keyNotString rest
    | rest => failAtNext .missingObjectEnd rest

/-- Reads an object after its opening bracket. Of a key that is written twice the first place and
the last value count. -/
def readObject (value : Reader) (input : List Char) : Except Fault (Json × List Char) :=
  match skipSpace input with
  | [] => fail .endInObject []
  | '}' :: rest => .ok (.object [], rest)
  | '"' :: rest => do
    let (field, rest) ← readField value rest
    let (fields, rest) ← readFields value (rest.length + 1) rest
    .ok (.object (OrderedMap.ofList (field :: fields)), rest)
  | rest => failAtNext .keyNotString rest

/-- Reads a value, given how to read a list and an object from their opening brackets on. -/
def readWith (array object : Reader) (input : List Char) : Except Fault (Json × List Char) :=
  match skipSpace input with
  | [] => fail .endInValue []
  | c :: rest =>
    if c = 'n' then readWord ['u', 'l', 'l'] .null rest
    else if c = 't' then readWord ['r', 'u', 'e'] (.bool true) rest
    else if c = 'f' then readWord ['a', 'l', 's', 'e'] (.bool false) rest
    else if c = '-' then readNumber true rest
    else if isDigit c then readNumber false (c :: rest)
    else if c = '"' then do
      let (s, rest) ← readString rest
      .ok (.text s, rest)
    else if c = '[' then array (c :: rest)
    else if c = '{' then object (c :: rest)
    else failAtNext .missingValue (c :: rest)

/-- Reads a value that nests at most `depth` brackets. -/
def readValue : (depth : Nat) → Reader
  | 0 => readWith (failAtNext .tooDeep) (failAtNext .tooDeep)
  | depth + 1 =>
    readWith (fun input => readArray (readValue depth) (input.drop 1))
      (fun input => readObject (readValue depth) (input.drop 1))

/-- How deep brackets may nest. -/
def maxDepth : Nat := 127

/-- Reads a whole text. -/
def readDocument (input : List Char) : Except Fault Json := do
  let (document, rest) ← readValue maxDepth input
  match skipSpace rest with
  | [] => .ok document
  | rest => .error ⟨.trailingText, rest, 1⟩

/-- The document that a text holds. -/
def parse (input : String) : Except SyntaxError Json :=
  (readDocument input.toList).mapError (Fault.locate input.toList)

end LayeredProfiles.Json
