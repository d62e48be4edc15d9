import LayeredProfiles.Failure
import LayeredProfiles.Pattern.Basic

set_option autoImplicit false

/-!
# Reading patterns

Most characters stand for themselves. A dot stands for any character but the line break, brackets
enclose a set, a caret and a dollar sign stand for the two ends of the text. A star, a plus sign and
a question mark repeat what stands before them, a bar separates alternatives, parentheses group, and
a backslash takes its special meaning from a mark.

## Main definitions

* `Pattern.Frame` — what has been read of a group.
* `Pattern.readSet?` — reads a set behind its opening bracket.
* `Pattern.read?` — the pattern that a text describes.

## Implementation notes

Groups that are open stand on a stack. Every step takes at least one character off the text, whose
length therefore bounds the number of steps.
-/

namespace LayeredProfiles.Pattern

/-- What has been read of a group: the finished alternatives and the parts of the current one, the
last ones first. -/
structure Frame where
  /-- The finished alternatives. -/
  finished : List Pattern
  /-- The parts of the current alternative. -/
  parts : List Pattern
deriving DecidableEq, Repr

namespace Frame

/-- Nothing has been read. -/
def empty : Frame := ⟨[], []⟩

/-- Adds a part. -/
def add (frame : Frame) (part : Pattern) : Frame :=
  { frame with parts := part :: frame.parts }

/-- Changes the last part, if there is one. -/
def change? (frame : Frame) (f : Pattern → Pattern) : Option Frame :=
  match frame.parts with
  | [] => none
  | part :: before => some { frame with parts := f part :: before }

/-- The current alternative. -/
def current (frame : Frame) : Pattern :=
  match frame.parts with
  | [] => .empty
  | part :: before => before.foldl (fun later earlier => .seq earlier later) part

/-- Begins another alternative. -/
def next (frame : Frame) : Frame := ⟨frame.current :: frame.finished, []⟩

/-- The pattern of the group. -/
def pattern (frame : Frame) : Pattern :=
  frame.finished.foldl (fun later earlier => .either earlier later) frame.current

end Frame

/-- The control characters that have an escape. -/
def control? : Char → Option Char
  | 'n' => some '\n'
  | 't' => some '\t'
  | 'r' => some '\r'
  | 'a' => some (Char.ofNat 7)
  | 'v' => some (Char.ofNat 11)
  | 'f' => some (Char.ofNat 12)
  | _ => none

/-- Whether a backslash makes a mark stand for itself. -/
def isMark (c : Char) : Bool :=
  let n := c.toNat
  32 ≤ n && n < 127 && !c.isAlphanum && c != '<' && c != '>'

/-- The character that a backslash and another character stand for. -/
def escaped? (c : Char) : Option Char :=
  if isMark c then some c else control? c

/-- Reads a character inside brackets. -/
def readSetChar? : List Char → Option (Char × List Char)
  | [] => none
  | '[' :: _ => none
  | '\\' :: c :: rest => (escaped? c).map fun c => (c, rest)
  | ['\\'] => none
  | c :: rest => some (c, rest)

/-- Reads the ranges of a set and its closing bracket. The first argument bounds their number. -/
def readRanges? : (fuel : Nat) → List Char → Option (List (Char × Char) × List Char)
  | 0, _ => none
  | _ + 1, ']' :: rest => some ([], rest)
  | fuel + 1, input => do
    let (first, rest) ← readSetChar? input
    match rest with
    | '-' :: ']' :: rest => some ([(first, first), ('-', '-')], rest)
    | '-' :: rest => do
      let (last, rest) ← readSetChar? rest
      if last < first then none
      else do
        let (ranges, rest) ← readRanges? fuel rest
        some ((first, last) :: ranges, rest)
    | rest => do
      let (ranges, rest) ← readRanges? fuel rest
      some ((first, first) :: ranges, rest)

/-- Reads a set behind its opening bracket. A closing bracket that comes first stands for itself. -/
def readSet? (input : List Char) : Option (Letters × List Char) :=
  let (others, input) :=
    match input with
    | '^' :: rest => (true, rest)
    | _ => (false, input)
  match input with
  | ']' :: rest =>
    (readRanges? (rest.length + 1) rest).map fun found => (⟨others, (']', ']') :: found.1⟩, found.2)
  | _ => (readRanges? (input.length + 1) input).map fun found => (⟨others, found.1⟩, found.2)

/-- Reads a pattern, given the group that is being read and those around it. -/
def readFrames? : (fuel : Nat) → List Char → Frame → List Frame → Option Pattern
  | 0, _, _, _ => none
  | _ + 1, [], frame, around => if around.isEmpty then some frame.pattern else none
  | fuel + 1, c :: rest, frame, around =>
    match c with
    | '.' => readFrames? fuel rest (frame.add (.one .visible)) around
    | '^' => readFrames? fuel rest (frame.add .atStart) around
    | '$' => readFrames? fuel rest (frame.add .atEnd) around
    | '|' => readFrames? fuel rest frame.next around
    | '(' =>
      match rest with
      | '?' :: ':' :: rest => readFrames? fuel rest .empty (frame :: around)
      | _ => readFrames? fuel rest .empty (frame :: around)
    | ')' =>
      match around with
      | [] => none
      | outer :: around => readFrames? fuel rest (outer.add frame.pattern) around
    | '*' => do readFrames? fuel rest (← frame.change? .star) around
    | '+' => do readFrames? fuel rest (← frame.change? .plus) around
    | '?' => do readFrames? fuel rest (← frame.change? .optional) around
    | '{' => none
    | '[' => do
      let (letters, rest) ← readSet? rest
      readFrames? fuel rest (frame.add (.one letters)) around
    | '\\' =>
      match rest with
      | [] => none
      | c :: rest => do readFrames? fuel rest (frame.add (.one (.single (← escaped? c)))) around
    | c => readFrames? fuel rest (frame.add (.one (.single c))) around

/-- The pattern that a text describes. -/
def read? (text : String) : Option Pattern :=
  readFrames? (text.length + 1) text.toList .empty []

/-- The pattern that a text of the configuration describes. -/
def parse (text : String) : Except Failure Pattern :=
  match read? text with
  | some pattern => .ok pattern
  | none => .error (.badPattern text)

end LayeredProfiles.Pattern
