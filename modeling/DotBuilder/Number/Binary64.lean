/-!
# Double precision numbers

A double is given by its 64 bits: a sign, eleven bits of exponent and fifty-two bits of fraction.
A finite double other than zero is, up to its sign,

    significand · 2 ^ scale · 2 ^ (-1074),

and all arithmetic on it is done in natural numbers.  The reals that round to it (to the nearest
double, ties to the even significand) form an interval.  Its ends lie half way to the neighbours,
which is a quarter of the gap above when the neighbour below has a smaller exponent, so the
interval is given in units of `2 ^ (-1076)`.
-/

namespace DotBuilder

/-- A double precision number. -/
structure Binary64 where
  /-- Sign, exponent and fraction, from the highest bit down. -/
  bits : UInt64
  deriving DecidableEq, Repr

/-- The reals that round to a positive number, in units of `2 ^ (-1076)`. -/
structure RoundingInterval where
  /-- The lower end. -/
  low : Nat
  /-- The number itself. -/
  value : Nat
  /-- The upper end. -/
  high : Nat
  /-- Whether the ends round to the number too. -/
  closed : Bool
  deriving DecidableEq, Repr

namespace Binary64

/-- Whether the sign bit is set. -/
def negative (x : Binary64) : Bool := decide (Nat.pow 2 63 ≤ x.bits.toNat)

/-- The exponent bits as a number. -/
def biased (x : Binary64) : Nat := x.bits.toNat / Nat.pow 2 52 % Nat.pow 2 11

/-- The fraction bits as a number. -/
def fraction (x : Binary64) : Nat := x.bits.toNat % Nat.pow 2 52

/-- Whether the bits stand for no number. -/
def isNaN (x : Binary64) : Bool := decide (x.biased = 2047) && decide (x.fraction ≠ 0)

/-- Whether the bits stand for an infinity. -/
def isInfinite (x : Binary64) : Bool := decide (x.biased = 2047) && decide (x.fraction = 0)

/-- Whether the bits stand for a real number. -/
def isFinite (x : Binary64) : Bool := decide (x.biased ≠ 2047)

/-- The significand: the fraction, with the leading one that numbers above the least exponent
have. -/
def significand (x : Binary64) : Nat :=
  if x.biased = 0 then x.fraction else Nat.pow 2 52 + x.fraction

/-- The power of two that the significand is scaled by, counted from `2 ^ (-1074)`. -/
def scale (x : Binary64) : Nat := x.biased - 1

/-- Whether the double below is only half as far away as the one above: so at the powers of two
above the least exponent. -/
def narrowBelow (x : Binary64) : Bool := decide (x.fraction = 0) && decide (1 < x.biased)

/-- The reals that round to the number, its sign aside. -/
def interval (x : Binary64) : RoundingInterval where
  low := (4 * x.significand - if x.narrowBelow then 1 else 2) * Nat.pow 2 x.scale
  value := 4 * x.significand * Nat.pow 2 x.scale
  high := (4 * x.significand + 2) * Nat.pow 2 x.scale
  closed := decide (x.significand % 2 = 0)

theorem fraction_lt (x : Binary64) : x.fraction < Nat.pow 2 52 := Nat.mod_lt _ (by decide)

theorem biased_lt (x : Binary64) : x.biased < Nat.pow 2 11 := Nat.mod_lt _ (by decide)

end Binary64

end DotBuilder
