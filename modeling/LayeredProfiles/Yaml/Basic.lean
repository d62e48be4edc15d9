import LayeredProfiles.Number.Power
import LayeredProfiles.Text.Blank

set_option autoImplicit false

/-!
# Settings files

A settings file is written with indentation: mappings, one field on a line, with sequences marked by
dashes; or with brackets. Scalars are texts in quotes, or plain. What a plain scalar means depends
on what is asked for.

## Main definitions

* `Yaml` — what a settings file holds.
* `Yaml.truth?`, `Yaml.natural?`, `Yaml.text?` — a scalar as a truth value, a number, a text.
-/

namespace LayeredProfiles

/-- What a settings file holds. -/
inductive Yaml where
  /-- A scalar without quotes. -/
  | plain (text : String)
  /-- A scalar in quotes. -/
  | quoted (text : String)
  /-- A sequence. -/
  | sequence (items : List Yaml)
  /-- A mapping. -/
  | mapping (fields : List (Yaml × Yaml))
deriving Repr

namespace Yaml

/-- The text of a scalar. -/
def text? : Yaml → Option String
  | .plain s | .quoted s => some s
  | _ => none

/-- Whether a scalar stands for nothing. -/
def isNull : Yaml → Bool
  | .plain s => ["", "~", "null", "Null", "NULL"].contains s
  | _ => false

/-- The truth value of a plain scalar. -/
def truth? : Yaml → Option Bool
  | .plain s =>
    if ["true", "True", "TRUE"].contains s then some true
    else if ["false", "False", "FALSE"].contains s then some false
    else none
  | _ => none

/-- The value of a digit, of either case. -/
def digit? (c : Char) : Option Nat :=
  if '0' ≤ c ∧ c ≤ '9' then some (c.toNat - 48)
  else if 'a' ≤ c ∧ c ≤ 'z' then some (c.toNat - 87)
  else if 'A' ≤ c ∧ c ≤ 'Z' then some (c.toNat - 55)
  else none

/-- The number that digits in a base denote. -/
def digits? (base : Nat) : List Char → Option Nat
  | [] => none
  | digits => digits.foldlM (fun n c => do
      let d ← digit? c
      if d < base then some (n * base + d) else none) 0

/-- The number that digits denote: in base ten without zeros in front, or in another base after its
mark. -/
def unsigned? : List Char → Option Nat
  | ['0'] => some 0
  | '0' :: 'x' :: digits => digits? 16 digits
  | '0' :: 'o' :: digits => digits? 8 digits
  | '0' :: 'b' :: digits => digits? 2 digits
  | '0' :: _ => none
  | digits => digits? 10 digits

/-- The natural number of 64 bits that a plain scalar denotes. Zero may have a minus sign. -/
def natural? : Yaml → Option Nat
  | .plain s =>
    match s.toList with
    | '-' :: digits => (unsigned? digits).filter fun n => n == 0
    | '+' :: digits => (unsigned? digits).filter fun n => n < twoTo 64
    | digits => (unsigned? digits).filter fun n => n < twoTo 64
  | _ => none

/-- The fields of a mapping. An empty plain scalar is a mapping without fields. -/
def fields? : Yaml → Option (List (Yaml × Yaml))
  | .mapping fields => some fields
  | .plain "" => some []
  | _ => none

end Yaml

end LayeredProfiles
