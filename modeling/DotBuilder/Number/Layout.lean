import DotBuilder.Number.Shortest

/-!
# Number texts

Integers are written in decimal digits.  A double is written by its shortest decimal: positionally
with a point, or as a leading digit, the rest behind a point, and a power of ten.  A `Layout` says
which of the two; `Binary64.text` puts sign, digits and the words for the special values together.
-/

namespace DotBuilder

/-! ## Integers -/

/-- The decimal digits of a natural number. -/
def natChars (n : Nat) : List Char := Nat.toDigits 10 n

/-- The decimal digits of an integer behind a minus sign if it is negative. -/
def intChars (n : Int) : List Char :=
  if n < 0 then '-' :: natChars n.natAbs else natChars n.natAbs

/-- The text of an integer. -/
def intText (n : Int) : String := String.ofList (intChars n)

/-! ## Doubles -/

/-- How the digits of a decimal are laid out. -/
structure Layout where
  /-- The least power of ten of the leading digit that is written positionally. -/
  lowest : Int
  /-- The least power of ten above it that is not. -/
  bound : Int
  /-- How many digits a written power of ten has at least. -/
  exponentWidth : Nat
  deriving DecidableEq, Repr

/-- Digits whose last has the power `10 ^ e`, with a point and at least one digit on each side. -/
def positional (ds : List Char) (e : Int) : List Char :=
  let behind := (-e).toNat
  if behind = 0 then ds ++ List.replicate e.toNat '0' ++ ['.', '0']
  else if behind < ds.length then
    ds.take (ds.length - behind) ++ '.' :: ds.drop (ds.length - behind)
  else '0' :: '.' :: (List.replicate (behind - ds.length) '0' ++ ds)

/-- A power of ten: the letter, a sign in any case, and at least `width` digits. -/
def powerOfTen (width : Nat) (e : Int) : List Char :=
  let ds := natChars e.natAbs
  'e' :: (if e < 0 then '-' else '+') :: (List.replicate (width - ds.length) '0' ++ ds)

/-- Digits whose first has the power `10 ^ e`: the first, the others behind a point if there are
any, and the power. -/
def exponential (width : Nat) (ds : List Char) (e : Int) : List Char :=
  ds.take 1 ++ (if ds.length ≤ 1 then [] else '.' :: ds.drop 1) ++ powerOfTen width e

namespace Layout

/-- The decimal written as the layout says. -/
def chars (l : Layout) (d : Decimal) : List Char :=
  let ds := natChars d.coefficient
  let leading := d.exponent + ds.length - 1
  if l.lowest ≤ leading ∧ leading < l.bound then positional ds d.exponent
  else exponential l.exponentWidth ds leading

end Layout

namespace Binary64

/-- The characters of a double that is a number or an infinity, its sign aside. -/
def magnitudeChars (l : Layout) (x : Binary64) : List Char :=
  if x.isInfinite then ['i', 'n', 'f'] else l.chars x.shortest

/-- The characters of a double: a word if it is no number, else sign and magnitude. -/
def chars (l : Layout) (x : Binary64) : List Char :=
  if x.isNaN then ['n', 'a', 'n']
  else if x.negative then '-' :: x.magnitudeChars l
  else x.magnitudeChars l

/-- The text of a double. -/
def text (l : Layout) (x : Binary64) : String := String.ofList (x.chars l)

end Binary64

end DotBuilder
