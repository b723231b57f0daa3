import DotBuilder.Number.Binary64

/-!
# Shortest decimals

The shortest decimal of a double is the one with the fewest digits among those that round to it,
and the nearest to it of these; of two equally near ones the even one.

A decimal `n · 10 ^ e` has the fewer digits the coarser its grid, the multiples of `10 ^ e`, is.
The search therefore goes through the grids from the coarsest that can hold a point of the rounding
interval to finer ones, and looks on each at the two points next to the number: if any point of the
grid lies in the interval then one of these two does.  It ends at `10 ^ (-1074)` at the latest,
since every double is a point of that grid.
-/

namespace DotBuilder

/-- The number `coefficient · 10 ^ exponent`. -/
structure Decimal where
  /-- The digits as one number. -/
  coefficient : Nat
  /-- The power of ten of the last digit. -/
  exponent : Int
  deriving DecidableEq, Repr

namespace RoundingInterval

/-- Whether `n · 10 ^ e` lies in the interval.  Both are compared as multiples of
`2 ^ (-1076) · 10 ^ (min e 0)`. -/
def holds (I : RoundingInterval) (n : Nat) (e : Int) : Bool :=
  let point := n * Nat.pow 10 e.toNat * Nat.pow 2 1076
  let unit := Nat.pow 10 (-e).toNat
  if I.closed then decide (I.low * unit ≤ point) && decide (point ≤ I.high * unit)
  else decide (I.low * unit < point) && decide (point < I.high * unit)

/-- The point of the interval nearest to its number on the grid of `10 ^ e`, if the grid has a
point in the interval. -/
def nearest? (I : RoundingInterval) (e : Int) : Option Nat :=
  let num := I.value * Nat.pow 10 (-e).toNat
  let den := Nat.pow 10 e.toNat * Nat.pow 2 1076
  let n := num / den
  match I.holds n e, I.holds (n + 1) e with
  | false, false => none
  | true, false => some n
  | false, true => some (n + 1)
  | true, true =>
    let below := num - n * den
    let above := (n + 1) * den - num
    if below < above then some n
    else if above < below then some (n + 1)
    else some (if n % 2 = 0 then n else n + 1)

/-- The nearest point on the first grid that has one, of `steps` grids from `10 ^ e` down. -/
def search (I : RoundingInterval) : Nat → Int → Decimal
  | 0, e => ⟨0, e⟩
  | steps + 1, e =>
    match I.nearest? e with
    | some n => ⟨n, e⟩
    | none => I.search steps (e - 1)

/-- The exponent of the coarsest grid that can have a point in the interval: the upper end is less
than `10 ^ (d - 323)`, where `d` is the number of its digits in units of `2 ^ (-1076)`. -/
def coarsest (I : RoundingInterval) : Int := (Nat.toDigits 10 I.high).length - 324

end RoundingInterval

/-- The shortest decimal of a finite double, its sign aside. -/
def Binary64.shortest (x : Binary64) : Decimal :=
  if x.significand = 0 then ⟨0, 0⟩
  else
    let start := x.interval.coarsest
    x.interval.search (start + 1075).toNat start

end DotBuilder
