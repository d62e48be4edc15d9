import LayeredProfiles.Fragment.Reading
import LayeredProfiles.Path.Normalized

set_option autoImplicit false

/-!
# Where fragments are kept

Fragments refer to each other by keys, which are paths below the directory of profiles. A source
finds the fragment that is kept under a key, or says why it cannot.

## Main definitions

* `FragmentSource` — finds fragments by their keys.
* `FragmentSource.ofFragments`, `FragmentSource.ofTexts` — sources that are kept in memory.
-/

namespace LayeredProfiles

/-- Finds the fragment that is kept under a key. -/
abbrev FragmentSource := Path → Except Failure Fragment

namespace FragmentSource

/-- A table under normalized keys, of which a later one replaces an earlier one. -/
def tabulate {α : Type} (entries : List (Path × α)) : OrderedMap Path α :=
  OrderedMap.ofList (entries.map fun entry => (entry.1.normalized, entry.2))

/-- What a table holds under a key. -/
def find {α : Type} (table : OrderedMap Path α) (key : Path) : Except Failure α :=
  match OrderedMap.get? table key.normalized with
  | some value => .ok value
  | none => .error (.file key .noFragment)

/-- The source that keeps the given fragments. -/
def ofFragments (entries : List (Path × Fragment)) : FragmentSource :=
  find (tabulate entries)

/-- The source that keeps the given texts and reads a fragment when it is asked for. -/
def ofTexts (entries : List (Path × String)) : FragmentSource := fun key => do
  Fragment.parse key (← find (tabulate entries) key)

end FragmentSource

end LayeredProfiles
