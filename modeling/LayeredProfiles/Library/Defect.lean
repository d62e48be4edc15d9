set_option autoImplicit false

/-!
# What can be wrong with a parameter library

## Main definitions

* `LibraryDefect`, `LibraryDefect.message` — the ways in which a document fails to be a library,
  with their wording.
-/

namespace LayeredProfiles

/-- What can be wrong with a parameter library. -/
inductive LibraryDefect where
  /-- The document is not an object. -/
  | notAnObject
  /-- The entry of a parameter is not an object. -/
  | entryNotAnObject (name : String)
  /-- The settings of a parameter are neither absent nor null nor an object. -/
  | settingsNotAnObject (name : String)
deriving DecidableEq, Repr

/-- The wording of a defect. -/
def LibraryDefect.message : LibraryDefect → String
  | .notAnObject => "top-level value is not an object"
  | .entryNotAnObject name => "entry '" ++ name ++ "' is not an object"
  | .settingsNotAnObject name => "settings of '" ++ name ++ "' is not an object"

end LayeredProfiles
