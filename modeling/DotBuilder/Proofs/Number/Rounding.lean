import DotBuilder.Proofs.Number.Order
import Mathlib.Algebra.Order.Field.Rat
import Mathlib.Tactic.Linarith
import Mathlib.Tactic.NormNum
import Mathlib.Tactic.Positivity

/-!
# Rounding to the nearest double

A number with a sign rounds to the double of that sign whose magnitude is nearest, and to the one
with the even significand if two are equally near.  An infinity stands for the power of two that the
finite doubles end below, so that what is too large rounds to it.

* `RoundsTo` : what rounding is;
* `RoundingInterval.Contains`, `roundsTo_iff` : the numbers that round to a finite double are those
  in its interval;
* `RoundsTo.eq` : a number rounds to one double.
-/

namespace DotBuilder

/-- A number in the units of intervals. -/
def scaled (q : ℚ) : ℚ := q * 2 ^ 1076

theorem scaled_le_scaled {q r : ℚ} : scaled q ≤ scaled r ↔ q ≤ r :=
  mul_le_mul_iff_of_pos_right (by positivity)

theorem scaled_lt_scaled {q r : ℚ} : scaled q < scaled r ↔ q < r :=
  mul_lt_mul_iff_of_pos_right (by positivity)

theorem scaled_nonneg {q : ℚ} (hq : 0 ≤ q) : 0 ≤ scaled q := by
  unfold scaled
  positivity

namespace RoundingInterval

/-- A number lies in an interval. -/
def Contains (I : RoundingInterval) (q : ℚ) : Prop :=
  if I.closed = true then (I.low : ℚ) ≤ scaled q ∧ scaled q ≤ I.high
  else (I.low : ℚ) < scaled q ∧ scaled q < I.high

variable {I : RoundingInterval} {q r t : ℚ}

theorem Contains.low_le (h : I.Contains q) : (I.low : ℚ) ≤ scaled q := by
  unfold Contains at h
  split at h
  · exact h.1
  · exact h.1.le

theorem Contains.le_high (h : I.Contains q) : scaled q ≤ (I.high : ℚ) := by
  unfold Contains at h
  split at h
  · exact h.2
  · exact h.2.le

/-- An end that is in the interval closes it. -/
theorem Contains.closed_of_eq (h : I.Contains q)
    (he : scaled q = I.low ∨ scaled q = I.high) : I.closed = true := by
  unfold Contains at h
  split at h
  · assumption
  · rcases he with he | he
    · exact absurd he.symm (ne_of_lt h.1)
    · exact absurd he (ne_of_lt h.2)

theorem contains_of_closed (hl : (I.low : ℚ) ≤ scaled q) (hh : scaled q ≤ (I.high : ℚ))
    (hc : I.closed = true) : I.Contains q := by
  unfold Contains
  rw [if_pos hc]
  exact ⟨hl, hh⟩

theorem contains_of_lt (hl : (I.low : ℚ) < scaled q) (hh : scaled q < (I.high : ℚ)) :
    I.Contains q := by
  unfold Contains
  split
  · exact ⟨hl.le, hh.le⟩
  · exact ⟨hl, hh⟩

/-- What lies between two numbers of an interval is in it, too. -/
theorem Contains.between (hq : I.Contains q) (ht : I.Contains t) (hqr : q ≤ r) (hrt : r ≤ t) :
    I.Contains r := by
  have hl : scaled q ≤ scaled r := scaled_le_scaled.2 hqr
  have hh : scaled r ≤ scaled t := scaled_le_scaled.2 hrt
  unfold Contains at *
  split at hq
  · rename_i hc
    rw [if_pos hc] at ht ⊢
    exact ⟨hq.1.trans hl, hh.trans ht.2⟩
  · rename_i hc
    rw [if_neg hc] at ht ⊢
    exact ⟨hq.1.trans_le hl, hh.trans_lt ht.2⟩

end RoundingInterval

/-! ## Nearness -/

section Nearness

variable {a b q : ℚ}

theorem abs_sub_le_abs_sub_iff (h : a < b) : |q - a| ≤ |q - b| ↔ 2 * q ≤ a + b := by
  rw [← sq_le_sq]
  constructor <;> intro hq <;> nlinarith

theorem abs_sub_le_abs_sub_iff' (h : b < a) : |q - a| ≤ |q - b| ↔ a + b ≤ 2 * q := by
  rw [← sq_le_sq]
  constructor <;> intro hq <;> nlinarith

end Nearness

namespace Binary64

variable {s : Bool} {q : ℚ} {x y : Binary64}

/-- The magnitude of a double as a rational number, the infinities being next to the finite
doubles. -/
def magnitude (x : Binary64) : ℚ := (x.significand * 2 ^ x.scale : ℕ) / 2 ^ 1074

/-- A number of the given sign and magnitude rounds to a double: no double is nearer, and if another
one is as near then the significand is even. -/
structure RoundsTo (s : Bool) (q : ℚ) (x : Binary64) : Prop where
  negative : x.negative = s
  isNaN : x.isNaN = false
  nearest {y : Binary64} (hy : y.isNaN = false) : |q - x.magnitude| ≤ |q - y.magnitude|
  even {y : Binary64} (hy : y.isNaN = false) (hne : y.magnitude ≠ x.magnitude)
    (htie : |q - y.magnitude| = |q - x.magnitude|) : x.significand % 2 = 0

/-! ## Magnitudes and intervals -/

/-- Magnitudes in the units of intervals. -/
theorem scaled_magnitude (x : Binary64) : scaled x.magnitude = x.interval.value := by
  have hpow : (2 : ℚ) ^ 1076 = 2 ^ 1074 * 4 := by
    rw [show 1076 = 1074 + 2 from rfl, pow_add]
    norm_num
  rw [interval_value, units, magnitude, scaled, hpow, ← mul_assoc,
    div_mul_cancel₀ _ (by positivity)]
  push_cast
  ring

theorem scaled_abs_sub_magnitude (q : ℚ) (x : Binary64) :
    scaled |q - x.magnitude| = |scaled q - x.interval.value| := by
  rw [← scaled_magnitude]
  unfold scaled
  rw [← sub_mul, abs_mul, abs_of_pos (by positivity : (0 : ℚ) < 2 ^ 1076)]

theorem magnitude_nonneg (x : Binary64) : 0 ≤ x.magnitude := by
  unfold magnitude
  positivity

theorem magnitude_lt_iff : x.magnitude < y.magnitude ↔ x.rank < y.rank := by
  rw [← units_lt_iff]
  unfold magnitude
  rw [div_lt_div_iff_of_pos_right (by positivity), Nat.cast_lt, units, units]

theorem magnitude_eq_iff : x.magnitude = y.magnitude ↔ x.rank = y.rank := by
  have hlt := magnitude_lt_iff (x := x) (y := y)
  have hgt := magnitude_lt_iff (x := y) (y := x)
  constructor
  · intro h
    rw [h] at hlt hgt
    simp only [lt_irrefl, false_iff] at hlt hgt
    omega
  · intro h
    rw [h] at hlt hgt
    simp only [lt_irrefl, iff_false, not_lt] at hlt hgt
    exact le_antisymm hgt hlt

/-- A double is nearer than a larger one up to the middle. -/
theorem nearer_iff_of_rank_lt (h : x.rank < y.rank) :
    |q - x.magnitude| ≤ |q - y.magnitude| ↔
      2 * scaled q ≤ x.interval.value + y.interval.value := by
  have hlt : (x.interval.value : ℚ) < y.interval.value := by
    have := units_lt_iff.2 h
    rw [interval_value, interval_value]
    exact_mod_cast (by omega)
  rw [← scaled_le_scaled, scaled_abs_sub_magnitude, scaled_abs_sub_magnitude]
  exact abs_sub_le_abs_sub_iff hlt

/-- It is nearer than a smaller one from the middle on. -/
theorem nearer_iff_of_lt_rank (h : y.rank < x.rank) :
    |q - x.magnitude| ≤ |q - y.magnitude| ↔
      (x.interval.value + y.interval.value : ℚ) ≤ 2 * scaled q := by
  have hlt : (y.interval.value : ℚ) < x.interval.value := by
    have := units_lt_iff.2 h
    rw [interval_value, interval_value]
    exact_mod_cast (by omega)
  rw [← scaled_le_scaled, scaled_abs_sub_magnitude, scaled_abs_sub_magnitude]
  exact abs_sub_le_abs_sub_iff' hlt

theorem closed_iff_even : x.interval.closed = true ↔ x.significand % 2 = 0 := by
  rw [interval_closed, significand_mod_two]

/-! ## The numbers that round to a double -/

/-- What is in the interval of a double is not nearer to another one. -/
theorem nearest_of_contains (hq : x.interval.Contains q) (y : Binary64) :
    |q - x.magnitude| ≤ |q - y.magnitude| := by
  have hlow := hq.low_le
  have hhigh := hq.le_high
  rcases Nat.lt_trichotomy x.rank y.rank with h | h | h
  · rw [nearer_iff_of_rank_lt h]
    have hmiddle : (2 * x.interval.high : ℚ) ≤ x.interval.value + y.interval.value := by
      exact_mod_cast two_mul_high_le h
    linarith
  · rw [magnitude_eq_iff.2 h]
  · rw [nearer_iff_of_lt_rank h]
    have hmiddle : (x.interval.value + y.interval.value : ℚ) ≤ 2 * x.interval.low := by
      exact_mod_cast le_two_mul_low h
    linarith

/-- It is as near to another one at an end of the interval only. -/
theorem even_of_contains (hq : x.interval.Contains q) (hne : y.magnitude ≠ x.magnitude)
    (htie : |q - y.magnitude| = |q - x.magnitude|) : x.significand % 2 = 0 := by
  have hlow := hq.low_le
  have hhigh := hq.le_high
  rw [← closed_iff_even]
  rcases Nat.lt_trichotomy x.rank y.rank with h | h | h
  · have hle := (nearer_iff_of_lt_rank h).1 htie.le
    have hmiddle : (2 * x.interval.high : ℚ) ≤ x.interval.value + y.interval.value := by
      exact_mod_cast two_mul_high_le h
    exact hq.closed_of_eq (.inr (by linarith))
  · exact absurd (magnitude_eq_iff.2 h.symm) hne
  · have hle := (nearer_iff_of_rank_lt h).1 htie.le
    have hmiddle : (x.interval.value + y.interval.value : ℚ) ≤ 2 * x.interval.low := by
      exact_mod_cast le_two_mul_low h
    exact hq.closed_of_eq (.inl (by linarith))

namespace RoundsTo

/-- What rounds to a finite double is not above its interval, as the next double shows. -/
theorem le_high (h : RoundsTo s q x) (hx : x.isFinite = true) :
    scaled q ≤ x.interval.high ∧
      (scaled q = x.interval.high → x.interval.closed = true) := by
  have hfinite := isFinite_iff.1 hx
  obtain ⟨y, hy⟩ := exists_rank_eq (r := x.rank + 1) (by omega)
  have hnan : y.isNaN = false := isNaN_eq_false_iff.2 (by omega)
  have hlt : x.rank < y.rank := by omega
  have hmiddle : (2 * x.interval.high : ℚ) = x.interval.value + y.interval.value := by
    exact_mod_cast two_mul_high_eq hy
  have hle := (nearer_iff_of_rank_lt hlt).1 (h.nearest hnan)
  refine ⟨by linarith, fun heq => closed_iff_even.2 (h.even hnan ?_ ?_)⟩
  · rw [ne_eq, magnitude_eq_iff]
    omega
  · exact le_antisymm ((nearer_iff_of_lt_rank hlt).2 (by linarith)) (h.nearest hnan)

/-- It is not below, as the double before shows. -/
theorem low_le (h : RoundsTo s q x) (hx : x.isFinite = true) (hr : x.rank ≠ 0) :
    x.interval.low ≤ scaled q ∧
      (scaled q = x.interval.low → x.interval.closed = true) := by
  have hfinite := isFinite_iff.1 hx
  obtain ⟨y, hy⟩ := exists_rank_eq (r := x.rank - 1) (by omega)
  have hnan : y.isNaN = false := isNaN_eq_false_iff.2 (by omega)
  have hnext : x.rank = y.rank + 1 := by omega
  have hlt : y.rank < x.rank := by omega
  have hmiddle : (2 * x.interval.low : ℚ) = y.interval.value + x.interval.value := by
    rw [low_next hnext]
    exact_mod_cast two_mul_high_eq hnext
  have hle := (nearer_iff_of_lt_rank hlt).1 (h.nearest hnan)
  refine ⟨by linarith, fun heq => closed_iff_even.2 (h.even hnan ?_ ?_)⟩
  · rw [ne_eq, magnitude_eq_iff]
    omega
  · exact le_antisymm ((nearer_iff_of_rank_lt hlt).2 (by linarith)) (h.nearest hnan)

theorem contains (h : RoundsTo s q x) (hx : x.isFinite = true) (hq : 0 ≤ q) :
    x.interval.Contains q := by
  obtain ⟨hhigh, hhigh'⟩ := h.le_high hx
  have hlow : (x.interval.low : ℚ) ≤ scaled q ∧
      (scaled q = x.interval.low → x.interval.closed = true) := by
    by_cases hr : x.rank = 0
    · -- nothing is below zero
      rw [interval_low_of_rank_eq_zero hr, interval_closed, hr]
      exact ⟨by simpa using scaled_nonneg hq, fun _ => rfl⟩
    · exact h.low_le hx hr
  cases hc : x.interval.closed with
  | true => exact RoundingInterval.contains_of_closed hlow.1 hhigh hc
  | false =>
    rw [hc] at hhigh' hlow
    refine RoundingInterval.contains_of_lt (lt_of_le_of_ne hlow.1 fun e => ?_)
      (lt_of_le_of_ne hhigh fun e => ?_)
    · exact absurd (hlow.2 e.symm) Bool.false_ne_true
    · exact absurd (hhigh' e) Bool.false_ne_true

end RoundsTo

/-- **What rounds to a finite double is what lies in its interval**, with the sign. -/
theorem roundsTo_iff (hx : x.isFinite = true) (hq : 0 ≤ q) :
    RoundsTo s q x ↔ x.negative = s ∧ x.interval.Contains q := by
  constructor
  · exact fun h => ⟨h.negative, h.contains hx hq⟩
  · rintro ⟨hs, hc⟩
    exact ⟨hs, isNaN_of_isFinite hx, fun _ => nearest_of_contains hc _,
      fun _ => even_of_contains hc⟩

/-- Two doubles of different ranks cannot both be nearest and even. -/
theorem RoundsTo.not_rank_lt (hx : RoundsTo s q x) (hy : RoundsTo s q y) : ¬ x.rank < y.rank := by
  intro hlt
  have hnan := isNaN_eq_false_iff.1 hy.isNaN
  have hfinite : x.isFinite = true := isFinite_iff.2 (by omega)
  have hne : y.magnitude ≠ x.magnitude := by
    rw [ne_eq, magnitude_eq_iff]
    omega
  have htie : |q - y.magnitude| = |q - x.magnitude| :=
    le_antisymm (hy.nearest hx.isNaN) (hx.nearest hy.isNaN)
  -- the number is the middle between the two, so they are neighbours, of which one is odd
  have hle := (nearer_iff_of_lt_rank hlt).1 (hy.nearest hx.isNaN)
  have hhigh := (hx.le_high hfinite).1
  have hmiddle := two_mul_high_le hlt
  have hvalue : x.interval.value + y.interval.value ≤ 2 * x.interval.high := by
    have hcast : (y.interval.value + x.interval.value : ℚ) ≤ 2 * x.interval.high := by linarith
    have hnat : y.interval.value + x.interval.value ≤ 2 * x.interval.high := by
      exact_mod_cast hcast
    omega
  obtain ⟨z, hz⟩ := exists_rank_eq (r := x.rank + 1) (by have := y.rank_lt; omega)
  have hnext := two_mul_high_eq hz
  have hunits : z.units = y.units := by
    rw [interval_value] at hnext hmiddle hvalue
    rw [interval_value] at hnext hmiddle hvalue
    omega
  have hrank : z.rank = y.rank := units_eq_iff.1 hunits
  have hex := hx.even hy.isNaN hne htie
  have hey := hy.even hx.isNaN hne.symm htie.symm
  rw [significand_mod_two] at hex hey
  omega

/-- **A number rounds to one double.** -/
theorem RoundsTo.eq (hx : RoundsTo s q x) (hy : RoundsTo s q y) : x = y := by
  refine ext_rank (hx.negative.trans hy.negative.symm) ?_
  have hlt := hx.not_rank_lt hy
  have hgt := hy.not_rank_lt hx
  omega

end Binary64

end DotBuilder
