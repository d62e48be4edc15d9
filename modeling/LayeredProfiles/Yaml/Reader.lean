import LayeredProfiles.Yaml.Scalar

set_option autoImplicit false

/-!
# Reading settings files

Outside of brackets the indentation says what belongs together: the fields of a mapping and the
items of a sequence stand in one column, and what belongs to a field is indented further. Only the
items of a sequence may stand in the column of the field to which they belong. A mapping may begin
only where nothing but indentation and dashes stands before it.

## Main definitions

* `Yaml.Place` — what remains to be read, and where it stands.
* `Yaml.flowNode?` — reads what begins with a bracket, and what stands between brackets.
* `Yaml.blockNode?` — reads what is structured by indentation.
* `Yaml.read?` — what a file holds.

## Implementation notes

Every function takes a bound on the number of calls. Each call takes something off the text or hands
over to one that does, so that a bound of a few times the length of the text is never reached.
-/

namespace LayeredProfiles.Yaml

/-! ## Places -/

/-- What remains to be read, and where it stands. -/
structure Place where
  /-- What remains. -/
  rest : List Char
  /-- The column in which it stands. -/
  column : Nat
  /-- Whether nothing but indentation and dashes stands before it on the line. -/
  fresh : Bool

namespace Place

/-- Skips blanks, line breaks and comments. Where indentation counts, a tab is not allowed in it. -/
def skipFrom (flow : Bool) :
    (comment fresh : Bool) → (column : Nat) → List Char → Option Place
  | _, fresh, column, [] => some ⟨[], column, fresh⟩
  | comment, fresh, column, c :: rest =>
    if c = '\n' then skipFrom flow false true 0 rest
    else if comment then skipFrom flow true fresh (column + 1) rest
    else if c = ' ' then skipFrom flow false fresh (column + 1) rest
    else if c = '\t' then
      if fresh && !flow then none else skipFrom flow false fresh (column + 1) rest
    else if c = '#' then skipFrom flow true fresh (column + 1) rest
    else some ⟨c :: rest, column, fresh⟩

/-- Skips to what is to be read next. -/
def skip? (flow : Bool) (place : Place) : Option Place :=
  skipFrom flow false place.fresh place.column place.rest

/-- Whether the document ends here. -/
def atEnd (place : Place) : Bool :=
  place.rest.isEmpty || (place.column == 0 && atMark place.rest)

/-- The place behind something that was read on the line. -/
def behind (place : Place) (rest : List Char) : Place :=
  ⟨rest, place.column + (place.rest.length - rest.length), false⟩

/-- The place behind a dash. -/
def behindDash (place : Place) : Place :=
  ⟨place.rest.drop 1, place.column + 1, true⟩

/-- Whether a dash marks an item here. -/
def atDash (place : Place) : Bool :=
  match place.rest with
  | '-' :: rest => atBreak rest
  | _ => false

end Place

/-! ## Between brackets -/

/-- Reads a scalar between brackets. -/
def flowScalar? (place : Place) : Option (Yaml × Place) :=
  match place.rest with
  | '"' :: _ | '\'' :: _ => do
    let (text, rest) ← readQuoted? place.rest
    some (.quoted (String.ofList text), place.behind rest)
  | _ =>
    if startsPlain place.rest then do
      let (text, rest) ← readPlain? true 0 place.rest
      some (.plain (String.ofList text), place.behind rest)
    else none

mutual

/-- Reads what stands between brackets, or begins with one. -/
def flowNode? : (fuel : Nat) → Place → Option (Yaml × Place)
  | 0, _ => none
  | fuel + 1, place => do
    let place ← place.skip? true
    match place.rest with
    | '{' :: rest => do
      let (fields, place) ← flowFields? fuel (place.behind rest)
      some (.mapping fields, place)
    | '[' :: rest => do
      let (items, place) ← flowItems? fuel (place.behind rest)
      some (.sequence items, place)
    | _ => flowScalar? place

/-- Reads what may follow a key between brackets: a colon and a value, or nothing. -/
def flowValue? : (fuel : Nat) → Place → Option (Yaml × Place)
  | 0, _ => none
  | fuel + 1, place => do
    let place ← place.skip? true
    match place.rest with
    | ':' :: rest => do
      let place ← (place.behind rest).skip? true
      match place.rest with
      | ',' :: _ | '}' :: _ | ']' :: _ => some (.plain "", place)
      | _ => flowNode? fuel place
    | _ => some (.plain "", place)

/-- Reads fields up to the closing bracket. -/
def flowFields? : (fuel : Nat) → Place → Option (List (Yaml × Yaml) × Place)
  | 0, _ => none
  | fuel + 1, place => do
    let place ← place.skip? true
    match place.rest with
    | '}' :: rest => some ([], place.behind rest)
    | ':' :: _ => do
      let (value, place) ← flowValue? fuel place
      let (more, place) ← flowFieldsEnd? fuel place
      some ((.plain "", value) :: more, place)
    | _ => do
      let (key, place) ← flowNode? fuel place
      let (value, place) ← flowValue? fuel place
      let (more, place) ← flowFieldsEnd? fuel place
      some ((key, value) :: more, place)

/-- Reads what may follow a field between brackets: the closing bracket, or a comma and more. -/
def flowFieldsEnd? : (fuel : Nat) → Place → Option (List (Yaml × Yaml) × Place)
  | 0, _ => none
  | fuel + 1, place => do
    let place ← place.skip? true
    match place.rest with
    | '}' :: rest => some ([], place.behind rest)
    | ',' :: rest => flowFields? fuel (place.behind rest)
    | _ => none

/-- Reads items up to the closing bracket. An item with a colon is a mapping of one field. -/
def flowItems? : (fuel : Nat) → Place → Option (List Yaml × Place)
  | 0, _ => none
  | fuel + 1, place => do
    let place ← place.skip? true
    match place.rest with
    | ']' :: rest => some ([], place.behind rest)
    | _ => do
      let (item, place) ← flowNode? fuel place
      let place ← place.skip? true
      match place.rest with
      | ':' :: _ => do
        let (value, place) ← flowValue? fuel place
        let (more, place) ← flowItemsEnd? fuel place
        some (.mapping [(item, value)] :: more, place)
      | _ => do
        let (more, place) ← flowItemsEnd? fuel place
        some (item :: more, place)

/-- Reads what may follow an item between brackets: the closing bracket, or a comma and more. -/
def flowItemsEnd? : (fuel : Nat) → Place → Option (List Yaml × Place)
  | 0, _ => none
  | fuel + 1, place => do
    let place ← place.skip? true
    match place.rest with
    | ']' :: rest => some ([], place.behind rest)
    | ',' :: rest => flowItems? fuel (place.behind rest)
    | _ => none

end

/-! ## By indentation -/

/-- The text without the blanks in front. -/
def dropGap (input : List Char) : List Char :=
  input.dropWhile isGap

/-- Reads the key of a field and its colon. -/
def blockKey? (place : Place) : Option (Yaml × Place) :=
  match place.rest with
  | '"' :: _ | '\'' :: _ => do
    let (text, rest) ← readQuoted? place.rest
    match dropGap rest with
    | ':' :: rest =>
      if atBreak rest then some (.quoted (String.ofList text), place.behind rest) else none
    | _ => none
  | _ =>
    if startsPlain place.rest then do
      let (text, rest) ← plainLine? false false place.rest
      match rest with
      | ':' :: rest => some (.plain (String.ofList (dropGapEnd text)), place.behind rest)
      | _ => none
    else none

/-- Reads a scalar that is not a key. -/
def blockScalar? (least : Nat) (place : Place) : Option (Yaml × Place) :=
  match place.rest with
  | '"' :: _ | '\'' :: _ => do
    let (text, rest) ← readQuoted? place.rest
    some (.quoted (String.ofList text), place.behind rest)
  | _ =>
    if startsPlain place.rest then do
      let (text, rest) ← readPlain? false least place.rest
      some (.plain (String.ofList text), place.behind rest)
    else none

mutual

/-- Reads what is indented at least so far. Where nothing is, there is an empty scalar. -/
def blockNode? (least : Nat) : (fuel : Nat) → Place → Option (Yaml × Place)
  | 0, _ => none
  | fuel + 1, place => do
    let place ← place.skip? false
    if place.atEnd || (place.fresh && place.column < least) then some (.plain "", place)
    else if place.atDash then
      if place.fresh then do
        let (items, place) ← blockItems? place.column fuel place
        some (.sequence items, place)
      else none
    else if place.rest.head? = some '{' || place.rest.head? = some '[' then flowNode? fuel place
    else if place.fresh && (blockKey? place).isSome then do
      let (fields, place) ← blockFields? place.column fuel place
      some (.mapping fields, place)
    else blockScalar? least place

/-- Reads the fields that stand in a column. -/
def blockFields? (column : Nat) : (fuel : Nat) → Place → Option (List (Yaml × Yaml) × Place)
  | 0, _ => none
  | fuel + 1, place => do
    let (key, place) ← blockKey? place
    let inside ← place.skip? false
    let (value, place) ←
      if inside.fresh && inside.column == column && inside.atDash then do
        let (items, place) ← blockItems? column fuel inside
        some (Yaml.sequence items, place)
      else blockNode? (column + 1) fuel place
    let place ← place.skip? false
    if place.atEnd || (place.fresh && place.column < column) then some ([(key, value)], place)
    else if place.fresh && place.column == column then do
      let (more, place) ← blockFields? column fuel place
      some ((key, value) :: more, place)
    else none

/-- Reads the items that stand in a column. -/
def blockItems? (column : Nat) : (fuel : Nat) → Place → Option (List Yaml × Place)
  | 0, _ => none
  | fuel + 1, place => do
    let (item, place) ← blockNode? (column + 1) fuel place.behindDash
    let place ← place.skip? false
    if place.atEnd || (place.fresh && place.column < column) then some ([item], place)
    else if place.fresh && place.column == column then
      if place.atDash then do
        let (more, place) ← blockItems? column fuel place
        some (item :: more, place)
      else some ([item], place)
    else none

end

/-! ## Files -/

/-- Whether a character may stand in a file. -/
def isAllowed (c : Char) : Bool :=
  let n := c.toNat
  n == 9 || n == 10 || n == 13 || (32 ≤ n && n < 127) || n == 0x85 ||
    (0xA0 ≤ n && n != 0xFEFF && n != 0xFFFE && n != 0xFFFF)

/-- A text with single characters for all line breaks. -/
def unifyBreaks : List Char → List Char
  | '\r' :: '\n' :: rest => '\n' :: unifyBreaks rest
  | '\r' :: rest => '\n' :: unifyBreaks rest
  | c :: rest => c :: unifyBreaks rest
  | [] => []

/-- What has to follow the only document of a file: nothing but an end mark. -/
def atFileEnd (place : Place) : Bool :=
  match place.rest with
  | [] => true
  | '.' :: '.' :: '.' :: rest =>
    match Place.skipFrom false false false 3 rest with
    | some ⟨[], _, _⟩ => true
    | _ => false
  | _ => false

/-- What a file holds, if it holds one document. A file without any holds an empty scalar. -/
def read? (text : String) : Option Yaml := do
  let input := unifyBreaks text.toList
  let input := if input.head? = some (Char.ofNat 0xFEFF) then input.drop 1 else input
  if !input.all isAllowed then none
  let place ← Place.skip? false ⟨input, 0, true⟩
  let place : Place ←
    match place.rest with
    | '%' :: _ => none
    | '-' :: '-' :: '-' :: rest =>
      if place.column = 0 ∧ atBreak rest then some ⟨rest, 3, false⟩ else some place
    | _ => some place
  let (node, place) ← blockNode? 0 (4 * input.length + 8) place
  let place ← place.skip? false
  if atFileEnd place then some node else none

end LayeredProfiles.Yaml
