set_option autoImplicit false

/-!
# Patterns

A pattern describes texts. It is found in a text if some stretch of the text, possibly an empty
one, is described by it.

## Main definitions

* `Letters` — a set of characters.
* `Pattern` — patterns.
* `Pattern.rests` — what may remain of a text behind a stretch that a pattern describes.
* `Pattern.isFoundIn` — whether a pattern is found in a text.

## Implementation notes

What remains of a text tells where in the text a stretch ends, so the start of the text is where
all of it remains. A repetition gathers the remains round by round until no new one turns up, which
happens after at most as many rounds as there are characters.
-/

namespace LayeredProfiles

/-- A set of characters: those in the ranges, or all others. -/
structure Letters where
  /-- Whether the others are meant. -/
  others : Bool
  /-- The ranges, their two ends included. -/
  ranges : List (Char × Char)
deriving DecidableEq, Repr

namespace Letters

/-- The set of a single character. -/
def single (c : Char) : Letters := ⟨false, [(c, c)]⟩

/-- The set of all characters but the line break. -/
def visible : Letters := ⟨true, [('\n', '\n')]⟩

/-- Whether a character is in a set. -/
def has (letters : Letters) (c : Char) : Bool :=
  (letters.ranges.any fun range => range.1 ≤ c && c ≤ range.2) != letters.others

end Letters

/-- A pattern. -/
inductive Pattern where
  /-- Nothing at all. -/
  | empty
  /-- One character of a set. -/
  | one (letters : Letters)
  /-- Nothing, at the start of the text. -/
  | atStart
  /-- Nothing, at the end of the text. -/
  | atEnd
  /-- One pattern after another. -/
  | seq (first second : Pattern)
  /-- One of two patterns. -/
  | either (first second : Pattern)
  /-- A pattern any number of times. -/
  | star (each : Pattern)
deriving DecidableEq, Repr

namespace Pattern

/-- A pattern at least once. -/
def plus (each : Pattern) : Pattern := .seq each (.star each)

/-- A pattern once or not at all. -/
def optional (each : Pattern) : Pattern := .either each .empty

/-- Adds whatever can be reached from the newest remains, for so many rounds. -/
def reach (step : List Char → List (List Char)) :
    (rounds : Nat) → (seen newest : List (List Char)) → List (List Char)
  | 0, seen, _ => seen
  | rounds + 1, seen, newest =>
    let next := ((newest.flatMap step).eraseDups).filter fun rest => !seen.contains rest
    if next.isEmpty then seen else reach step rounds (seen ++ next) next

/-- What may remain of a text behind a stretch at its front that the pattern describes. The whole
text has so many characters. -/
def rests (total : Nat) : Pattern → List Char → List (List Char)
  | .empty, text => [text]
  | .one _, [] => []
  | .one letters, c :: text => if letters.has c then [text] else []
  | .atStart, text => if text.length = total then [text] else []
  | .atEnd, text => if text.isEmpty then [text] else []
  | .seq first second, text => ((rests total first text).flatMap (rests total second)).eraseDups
  | .either first second, text => (rests total first text ++ rests total second text).eraseDups
  | .star each, text => reach (rests total each) (text.length + 1) [text] [text]

/-- What remains of a text from each of its places on. -/
def tails : List Char → List (List Char)
  | [] => [[]]
  | c :: text => (c :: text) :: tails text

/-- Whether a pattern is found in a text. -/
def isFoundIn (pattern : Pattern) (text : List Char) : Bool :=
  (tails text).any fun rest => !(rests text.length pattern rest).isEmpty

end Pattern

end LayeredProfiles
