import LayeredProfiles.Yaml.Basic

set_option autoImplicit false

/-!
# Scalars of settings files

A scalar may go on over several lines. The blanks around a line break do not count, a single break
is read as a space, and of several breaks all but one are kept.

## Main definitions

* `Yaml.foldGap` — a run of blanks and line breaks inside a scalar.
* `Yaml.readSingle?`, `Yaml.readDouble?` — scalars in quotes.
* `Yaml.plainLine?`, `Yaml.readPlain?` — plain scalars.
-/

namespace LayeredProfiles.Yaml

/-- Whether a character is a space or a tab. -/
def isGap (c : Char) : Bool :=
  c == ' ' || c == '\t'

/-- Whether a text is at its end or goes on with a blank or a line break. -/
def atBreak : List Char → Bool
  | [] => true
  | c :: _ => isGap c || c == '\n'

/-- Whether a line starts with a mark between documents: three dashes, or three dots at the end of
one. -/
def atMark : List Char → Bool
  | '-' :: '-' :: '-' :: rest => atBreak rest
  | '.' :: '.' :: '.' :: rest => atBreak rest
  | _ => false

/-- Whether a character has a meaning between brackets. -/
def isFlowMark (c : Char) : Bool :=
  [',', '[', ']', '{', '}'].contains c

/-! ## Gaps -/

/-- What a number of line breaks inside a scalar is read as. -/
def foldedBreaks (breaks : Nat) : List Char :=
  if breaks = 1 then [' '] else List.replicate (breaks - 1) '\n'

/-- Takes blanks and line breaks off the front: the blanks if there is no break, the number of
breaks, and what remains. -/
def takeGap (blanks : List Char) (breaks : Nat) : List Char → List Char × Nat × List Char
  | [] => (blanks, breaks, [])
  | c :: rest =>
    if c = '\n' then takeGap [] (breaks + 1) rest
    else if isGap c then takeGap (if breaks = 0 then blanks ++ [c] else []) breaks rest
    else (blanks, breaks, c :: rest)

/-- What a run of blanks and line breaks inside quotes is read as, and what remains. -/
def foldGap (input : List Char) : List Char × List Char :=
  let (blanks, breaks, rest) := takeGap [] 0 input
  (if breaks = 0 then blanks else foldedBreaks breaks, rest)

/-! ## Quotes -/

/-- Reads a scalar behind its opening single quote. A quote inside is written twice. -/
def readSingle? : (fuel : Nat) → List Char → Option (List Char × List Char)
  | 0, _ | _, [] => none
  | _ + 1, ['\''] => some ([], [])
  | fuel + 1, '\'' :: c :: rest =>
    if c = '\'' then (readSingle? fuel rest).map fun found => ('\'' :: found.1, found.2)
    else some ([], c :: rest)
  | fuel + 1, c :: rest =>
    if isGap c || c == '\n' then
      let (gap, rest) := foldGap (c :: rest)
      (readSingle? fuel rest).map fun found => (gap ++ found.1, found.2)
    else (readSingle? fuel rest).map fun found => (c :: found.1, found.2)

/-- The characters that a backslash and a letter stand for. -/
def named? : Char → Option Char
  | '0' => some (Char.ofNat 0)
  | 'a' => some (Char.ofNat 7)
  | 'b' => some (Char.ofNat 8)
  | 't' | '\t' => some '\t'
  | 'n' => some '\n'
  | 'v' => some (Char.ofNat 11)
  | 'f' => some (Char.ofNat 12)
  | 'r' => some '\r'
  | 'e' => some (Char.ofNat 27)
  | ' ' => some ' '
  | '"' => some '"'
  | '/' => some '/'
  | '\\' => some '\\'
  | 'N' => some (Char.ofNat 0x85)
  | '_' => some (Char.ofNat 0xA0)
  | 'L' => some (Char.ofNat 0x2028)
  | 'P' => some (Char.ofNat 0x2029)
  | _ => none

/-- The number of digits that follow a backslash and a letter. -/
def digitCount? : Char → Option Nat
  | 'x' => some 2
  | 'u' => some 4
  | 'U' => some 8
  | _ => none

/-- The character of a code point. -/
def charOf? (n : Nat) : Option Char :=
  if n.isValidChar then some (Char.ofNat n) else none

/-- Reads a scalar behind its opening double quote. -/
def readDouble? : (fuel : Nat) → List Char → Option (List Char × List Char)
  | 0, _ | _, [] => none
  | _ + 1, '"' :: rest => some ([], rest)
  | _ + 1, ['\\'] => none
  | fuel + 1, '\\' :: c :: rest =>
    if c = '\n' then
      let (_, breaks, rest) := takeGap [] 0 rest
      (readDouble? fuel rest).map fun found => (List.replicate breaks '\n' ++ found.1, found.2)
    else
      match digitCount? c with
      | some count => do
        if rest.length < count then none
        let c ← charOf? (← digits? 16 (rest.take count))
        let (more, rest) ← readDouble? fuel (rest.drop count)
        some (c :: more, rest)
      | none => do
        let c ← named? c
        let (more, rest) ← readDouble? fuel rest
        some (c :: more, rest)
  | fuel + 1, c :: rest =>
    if isGap c || c == '\n' then
      let (gap, rest) := foldGap (c :: rest)
      (readDouble? fuel rest).map fun found => (gap ++ found.1, found.2)
    else (readDouble? fuel rest).map fun found => (c :: found.1, found.2)

/-- Reads a scalar from its opening quote on. -/
def readQuoted? : List Char → Option (List Char × List Char)
  | '\'' :: rest => readSingle? (rest.length + 1) rest
  | '"' :: rest => readDouble? (rest.length + 1) rest
  | _ => none

/-! ## Plain scalars -/

/-- Whether a plain scalar can begin here. -/
def startsPlain : List Char → Bool
  | [] => false
  | c :: rest =>
    if c = '-' ∨ c = '?' ∨ c = ':' then !atBreak rest
    else
      !(isGap c || c == '\n' || isFlowMark c ||
        ['#', '&', '*', '!', '|', '>', '\'', '"', '%', '@', Char.ofNat 96].contains c)

/-- Reads a line of a plain scalar: up to the end of the line, a comment or a colon with a blank
behind it, and between brackets up to whatever has a meaning there. The first argument says whether
we are between brackets and the second whether there was a blank before. -/
def plainLine? (flow : Bool) : (afterGap : Bool) → List Char → Option (List Char × List Char)
  | _, [] => some ([], [])
  | afterGap, c :: rest =>
    if c = '\n' ∨ (c = '#' ∧ afterGap) ∨ (c = ':' ∧ atBreak rest) ∨ (flow ∧ isFlowMark c) then
      some ([], c :: rest)
    else if c = ':' ∧ flow ∧ (rest.head?.any fun next => next == '?' || isFlowMark next) then none
    else (plainLine? flow (isGap c) rest).map fun found => (c :: found.1, found.2)

/-- The end of a line without blanks. -/
def dropGapEnd (line : List Char) : List Char :=
  (line.reverse.dropWhile isGap).reverse

/-- The column that is reached behind blanks and line breaks. -/
def columnAfter : (column : Nat) → List Char → Nat
  | column, [] => column
  | column, c :: rest =>
    if c = '\n' then columnAfter 0 rest
    else if isGap c then columnAfter (column + 1) rest
    else column

/-- Whether a plain scalar goes on with what remains at a column. -/
def goesOn (flow : Bool) (least column : Nat) (rest : List Char) : Bool :=
  match rest with
  | [] => false
  | c :: _ => c != '#' && !(column == 0 && atMark rest) && (flow || least ≤ column)

/-- Reads the lines of a plain scalar after the first. They have to be indented at least so far. -/
def plainLines? (flow : Bool) (least : Nat) :
    (fuel : Nat) → List Char → Option (List Char × List Char)
  | 0, rest => some ([], rest)
  | fuel + 1, input =>
    let (_, breaks, rest) := takeGap [] 0 input
    if breaks ≠ 0 ∧ goesOn flow least (columnAfter 0 input) rest then do
      let (line, rest) ← plainLine? flow true rest
      if line.isEmpty then some ([], input)
      else do
        let (more, rest) ← plainLines? flow least fuel rest
        some (foldedBreaks breaks ++ dropGapEnd line ++ more, rest)
    else some ([], input)

/-- Reads a plain scalar. -/
def readPlain? (flow : Bool) (least : Nat) (input : List Char) :
    Option (List Char × List Char) := do
  let (line, rest) ← plainLine? flow false input
  let (more, rest) ← plainLines? flow least (rest.length + 1) rest
  some (dropGapEnd line ++ more, rest)

end LayeredProfiles.Yaml
