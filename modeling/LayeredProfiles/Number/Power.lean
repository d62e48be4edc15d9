set_option autoImplicit false

/-!
# Powers of two and ten

The two bases that meet where numbers are read and written.

## Main definitions

* `twoTo`, `tenTo` — the powers.
-/

namespace LayeredProfiles

/-- The power of two. -/
def twoTo (exponent : Nat) : Nat := Nat.pow 2 exponent

/-- The power of ten. -/
def tenTo (exponent : Nat) : Nat := Nat.pow 10 exponent

end LayeredProfiles
