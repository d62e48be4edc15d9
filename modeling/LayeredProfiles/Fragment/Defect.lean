import LayeredProfiles.Json.Basic
import LayeredProfiles.Text.Quoted

set_option autoImplicit false

/-!
# What can be wrong with a fragment

A document may be correct as such and still not be a fragment: it is not an object, a field holds a
value of the wrong kind, or the table of requests cannot be read.

## Main definitions

* `FragmentDefect`, `FragmentDefect.message` — the ways to fall short, with their wording.
* `Json.described` — a value as it is named in a message.
-/

namespace LayeredProfiles

/-- A value as it is named in a message: simple values are shown, lists and objects only named. -/
def Json.described : Json → String
  | .null => "null"
  | .bool b => "boolean `" ++ (if b then "true" else "false") ++ "`"
  | .integer i => "integer `" ++ toString i ++ "`"
  | .double x => "floating point `" ++ String.ofList x.text ++ "`"
  | .text s => "string " ++ Text.quoted s
  | .array _ => "sequence"
  | .object _ => "map"

/-- The kinds of value that a field may ask for. -/
inductive FieldKind where
  /-- A string. -/
  | text
  /-- A truth value. -/
  | truth
deriving DecidableEq, Repr

/-- The name of a kind in a message. -/
def FieldKind.described : FieldKind → String
  | .text => "a string"
  | .truth => "a boolean"

/-- What can be wrong with a fragment. -/
inductive FragmentDefect where
  /-- The document is not an object. -/
  | notAnObject
  /-- A field holds a value of the wrong kind. -/
  | wrongKind (found : Json) (wanted : FieldKind)
  /-- The table of requests is neither a list nor a mapping of requests. -/
  | unreadablePids
  /-- There is no table of requests although one is needed. -/
  | noPids
  /-- There is nothing to merge. -/
  | emptyChain
deriving DecidableEq, Repr

/-- The wording of a defect. -/
def FragmentDefect.message : FragmentDefect → String
  | .notAnObject => "top-level value is not an object"
  | .wrongKind found wanted =>
    "invalid type: " ++ found.described ++ ", expected " ++ wanted.described
  | .unreadablePids => "data did not match any variant of untagged enum PidsRepr"
  | .noPids => "no valid 'pids'"
  | .emptyChain => "empty inheritance chain"

end LayeredProfiles
