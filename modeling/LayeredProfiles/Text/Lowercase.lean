import LayeredProfiles.Text.CaseTable

set_option autoImplicit false

/-!
# Lowercase texts

The full lowercase mapping of the Unicode standard without any language's own rules. Two letters
need more than a table of single letters: the capital I with a dot becomes a dotted i, written as
two characters, and the capital sigma becomes the final form at the end of a word.

## Main definitions

* `lowercase` — the lowercase of a string.
-/

namespace LayeredProfiles.Text

/-- Looks a code point up in a list of runs. -/
def lowercaseIn : List CaseRun → Nat → Nat
  | [], n => n
  | run :: rest, n =>
    if n < run.first then n
    else if n ≤ run.last ∧ (n - run.first) % run.step = 0 then (n + run.offset).toNat
    else lowercaseIn rest n

/-- The simple lowercase of a letter; every other character is its own. -/
def lowercaseLetter (c : Char) : Char :=
  Char.ofNat (lowercaseIn lowercaseRuns c.toNat)

/-- Whether the first character that is not case-ignorable is a letter with case. -/
def startsCased : List Char → Bool
  | [] => false
  | c :: rest => if isCaseIgnorable c then startsCased rest else isCased c

/-- The lowercase of one character in its place: `before` is the text in front of it, backwards,
and `after` the text behind it. -/
def lowercaseChar (before : List Char) (c : Char) (after : List Char) : List Char :=
  if c = 'Σ' then [if startsCased before && !startsCased after then 'ς' else 'σ']
  else if c = 'İ' then ['i', Char.ofNat 0x307]
  else [lowercaseLetter c]

/-- The lowercase of a text, given the text in front of it, backwards. -/
def lowercaseAfter : (before : List Char) → List Char → List Char
  | _, [] => []
  | before, c :: rest => lowercaseChar before c rest ++ lowercaseAfter (c :: before) rest

/-- The lowercase of a string. -/
def lowercase (text : String) : String :=
  String.ofList (lowercaseAfter [] text.toList)

end LayeredProfiles.Text
