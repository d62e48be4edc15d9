import LayeredProfiles.Number.Binary64

set_option autoImplicit false

/-!
# The fewest digits that read back

Many decimals round to one double precision number: those between the midpoints to its two
neighbours, the midpoints included if its significand is even. A number is written with the fewest
digits that some such decimal has, and among those with the decimal nearest to it.

## Main definitions

* `Decimal` — whole digits and a power of ten.
* `Binary64.shortest` — the decimal that stands for a number.
* `Binary64.text` — its text, positional in a middle range and with an exponent outside it.

## Implementation notes

For one digit, two digits, and so on, the two decimals around the number with that many digits are
tried. If any decimal with that many digits reads back, one of these two does.
-/

namespace LayeredProfiles

/-- The decimal `digits * 10 ^ exponent`. -/
structure Decimal where
  /-- The digits as one whole number. -/
  digits : Nat
  /-- The exponent of ten that scales them. -/
  exponent : Int
deriving DecidableEq, Repr

namespace Decimal

/-- The same decimal without zeros at the end of its digits. The first argument bounds how many
zeros are taken away. -/
def stripZeros : Nat → Decimal → Decimal
  | 0, d => d
  | fuel + 1, d =>
    if d.digits ≠ 0 ∧ d.digits % 10 = 0 then stripZeros fuel ⟨d.digits / 10, d.exponent + 1⟩
    else d

end Decimal

namespace Binary64

/-- The decimals that read back as a number, as an interval of quotients with one denominator. -/
structure Interval where
  /-- The numerator of the lower end. -/
  low : Nat
  /-- The numerator of the number itself. -/
  value : Nat
  /-- The numerator of the upper end. -/
  high : Nat
  /-- The common denominator. -/
  den : Nat
  /-- Whether the ends belong to the interval. -/
  closed : Bool

/-- The interval of a number above zero. Below a power of two the neighbours are closer. -/
def interval (x : Binary64) : Interval :=
  let s := x.significand
  let below := if s = twoTo 52 ∧ minExponent < x.exponent then 1 else 2
  let scale : Int := x.exponent - 2
  let up := if scale < 0 then 1 else twoTo scale.natAbs
  let den := if scale < 0 then twoTo scale.natAbs else 1
  ⟨(4 * s - below) * up, 4 * s * up, (4 * s + 2) * up, den, s % 2 == 0⟩

/-- The interval measured in units of `10 ^ exponent`. -/
def Interval.rescale (i : Interval) (exponent : Int) : Interval :=
  let p := tenTo exponent.natAbs
  if exponent < 0 then { i with low := i.low * p, value := i.value * p, high := i.high * p }
  else { i with den := i.den * p }

/-- Whether a whole number lies in the interval. -/
def Interval.contains (i : Interval) (n : Nat) : Bool :=
  let m := n * i.den
  if i.closed then i.low ≤ m && m ≤ i.high else i.low < m && m < i.high

/-- The whole number of the two around the value that lies in the interval; of two the nearer, and
at a tie the even one. -/
def Interval.pick? (i : Interval) : Option Nat :=
  let floor := i.value / i.den
  let ceiling := floor + 1
  match i.contains floor, i.contains ceiling with
  | true, true => some (roundQuotient i.value i.den)
  | true, false => some floor
  | false, true => some ceiling
  | false, false => none

/-- The exponent of ten of the first digit of a quotient, searched from a start that is too low.
The first argument bounds the search. -/
def leadingExponent (value den : Nat) : Nat → Int → Int
  | 0, k => k
  | fuel + 1, k =>
    let next := k + 1
    let reached :=
      if next < 0 then decide (den ≤ value * tenTo next.natAbs)
      else decide (den * tenTo next.natAbs ≤ value)
    if reached then leadingExponent value den fuel next else k

/-- A start for the search of the first digit: below it by at most a few places, because
`1233 / 4096` is just above the logarithm of two in base ten. -/
def leadingStart (value den : Nat) : Int :=
  ((value.log2 : Int) - den.log2 - 1) * 1233 / 4096 - 2

/-- Tries one more digit until a decimal reads back. -/
def shortestFrom (i : Interval) (lead : Int) : (remaining : Nat) → (digits : Nat) → Decimal
  | 0, _ => ⟨i.value / i.den, 0⟩
  | remaining + 1, digits =>
    let exponent := lead - digits + 1
    match (i.rescale exponent).pick? with
    | some n => Decimal.stripZeros 20 ⟨n, exponent⟩
    | none => shortestFrom i lead remaining (digits + 1)

/-- The decimal with the fewest digits that reads back as a number above zero. -/
def shortest (x : Binary64) : Decimal :=
  let i := x.interval
  let lead := leadingExponent i.value i.den 16 (leadingStart i.value i.den)
  shortestFrom i lead 17 1

/-- The digits of a whole number in base ten. -/
def decimalDigits (n : Nat) : List Char :=
  Nat.toDigits 10 n

/-- The text of a decimal. The first digit's place decides its form: from `10 ^ -5` to below
`10 ^ 16` the digits stand around a point with at least one digit on either side, and outside that
range one digit stands before the point and a signed exponent follows. -/
def decimalText (d : Decimal) : List Char :=
  let ds := decimalDigits d.digits
  let count : Int := ds.length
  -- The number of digits before the point.
  let whole : Int := count + d.exponent
  if -5 < whole ∧ whole ≤ 16 then
    if 0 ≤ d.exponent then
      ds ++ List.replicate d.exponent.natAbs '0' ++ ['.', '0']
    else if 0 < whole then
      ds.take whole.toNat ++ '.' :: ds.drop whole.toNat
    else
      '0' :: '.' :: List.replicate whole.natAbs '0' ++ ds
  else
    let power := whole - 1
    let sign := if power < 0 then '-' else '+'
    let fraction := ds.drop 1
    ds.take 1 ++ (if fraction.isEmpty then [] else '.' :: fraction) ++
      'e' :: sign :: decimalDigits power.natAbs

/-- The text of a number. -/
def text (x : Binary64) : List Char :=
  let body := if x.isZero then ['0', '.', '0'] else decimalText x.shortest
  if x.negative then '-' :: body else body

end Binary64

end LayeredProfiles
