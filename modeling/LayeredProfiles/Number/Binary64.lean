import LayeredProfiles.Number.Power

set_option autoImplicit false

/-!
# Double precision numbers

A finite number of the binary format with 53 digits, held as a sign, a significand and an exponent
of two. Rounding is done once, on an exact quotient of natural numbers, and every operation goes
through it: to the nearest number of the format, a tie to the even significand.

## Main definitions

* `Binary64` — a finite double precision number.
* `Binary64.nearest?` — the number nearest to a quotient, if it is in range.
* `Binary64.ofDecimal?` — the number denoted by digits and a power of ten.

## Implementation notes

A decimal is read as the nearest number to its digits, multiplied or divided by the nearest number
to the power of ten, each step rounded. For digits below `2 ^ 53` and powers up to `10 ^ 22` this
is the nearest number to the decimal.
-/

namespace LayeredProfiles

/-- A finite double precision number: `significand * 2 ^ exponent` with a sign. -/
structure Binary64 where
  /-- Whether the sign is a minus; zero has a sign too. -/
  negative : Bool
  /-- The digits, below `2 ^ 53`. -/
  significand : Nat
  /-- The exponent of two that scales the digits. -/
  exponent : Int
deriving DecidableEq, Repr

/-- The whole number nearest to `num / den`, a tie going to the even one. -/
def roundQuotient (num den : Nat) : Nat :=
  let q := num / den
  let twice := 2 * (num % den)
  if twice < den then q
  else if den < twice then q + 1
  else q + q % 2

namespace Binary64

/-- The exponent of the last digit of the least numbers above zero. -/
def minExponent : Int := -1074

/-- The exponent of the last digit of the greatest numbers. -/
def maxExponent : Int := 971

/-- Zero with a sign. -/
def zero (negative : Bool) : Binary64 :=
  ⟨negative, 0, minExponent⟩

/-- Whether a number is zero, of either sign. -/
def isZero (x : Binary64) : Bool :=
  x.significand == 0

/-- The exponent at which `num / den` has 53 digits before the point, not below the least. -/
def exponentFor (num den : Nat) : Int :=
  let guess : Int := (num.log2 : Int) - den.log2 - 52
  -- The quotient at this scale lies strictly between `2 ^ 51` and `2 ^ 53`.
  let short :=
    if guess < 0 then decide (num * twoTo guess.natAbs < twoTo 52 * den)
    else decide (num < twoTo 52 * den * twoTo guess.natAbs)
  max minExponent (if short then guess - 1 else guess)

/-- The number nearest to `num / den`, or nothing if that is out of range. -/
def nearest? (num den : Nat) : Option Binary64 :=
  if num = 0 then some (zero false)
  else
    let e := exponentFor num den
    let s :=
      if e < 0 then roundQuotient (num * twoTo e.natAbs) den
      else roundQuotient num (den * twoTo e.natAbs)
    let (s, e) := if s = twoTo 53 then (twoTo 52, e + 1) else (s, e)
    if e ≤ maxExponent then some ⟨false, s, e⟩ else none

/-- The numerator of the absolute value as a quotient. -/
def num (x : Binary64) : Nat :=
  if x.exponent < 0 then x.significand else x.significand * twoTo x.exponent.natAbs

/-- The denominator of the absolute value as a quotient. -/
def den (x : Binary64) : Nat :=
  if x.exponent < 0 then twoTo x.exponent.natAbs else 1

/-- The product of two absolute values. -/
def mul? (x y : Binary64) : Option Binary64 :=
  nearest? (x.num * y.num) (x.den * y.den)

/-- The quotient of two absolute values. -/
def div? (x y : Binary64) : Option Binary64 :=
  nearest? (x.num * y.den) (x.den * y.num)

/-- The number nearest to a power of ten. -/
def pow10? (k : Nat) : Option Binary64 :=
  nearest? (tenTo k) 1

/-- Scales `x` by a power of ten, or nothing if the result is out of range. A scale below
`10 ^ -308` is applied in steps of `10 ^ 308`, which ends early when nothing is left. -/
def scale? (x : Binary64) (exponent : Int) : Option Binary64 :=
  if exponent.natAbs ≤ 308 then do
    let power ← pow10? exponent.natAbs
    if 0 ≤ exponent then mul? x power else div? x power
  else if x.isZero then some x
  else if 0 ≤ exponent then none
  else do
    let power ← pow10? 308
    let y ← div? x power
    scale? y (exponent + 308)
termination_by exponent.natAbs
decreasing_by omega

/-- The number `digits * 10 ^ exponent` with a sign, or nothing if it is out of range. -/
def ofDecimal? (negative : Bool) (digits : Nat) (exponent : Int) : Option Binary64 := do
  let x ← nearest? digits 1
  let y ← scale? x exponent
  return { y with negative }

/-- Whether the number has no digits after the point. -/
def isWhole (x : Binary64) : Bool :=
  x.num % x.den == 0

end Binary64

end LayeredProfiles
