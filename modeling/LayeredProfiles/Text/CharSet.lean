set_option autoImplicit false

/-!
# Sets of characters given by their boundaries

A property of characters holds on a union of intervals. It is stored as the ascending list of the
code points at which it changes: the first is where it begins, the second where it has ended, and
so on.

## Main definitions

* `CharSet.within` — membership in the union of intervals.
-/

namespace LayeredProfiles.Text.CharSet

/-- Whether a code point lies in the set with the given ascending boundaries: an odd number of
them is not above it. -/
def within : List Nat → Nat → Bool
  | [], _ => false
  | b :: rest, n => if n < b then false else !within rest n

end LayeredProfiles.Text.CharSet
