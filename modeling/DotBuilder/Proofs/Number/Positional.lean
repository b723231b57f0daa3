import DotBuilder.Proofs.Number.Reading
import DotBuilder.Value

/-!
# Which doubles are written positionally

The leading digit of the shortest decimal decides whether the text of a double has a power of ten in
it, not the double itself.  The two could differ for a double next to a power at which the layout
changes.  They do not: the doubles from a certain one on are those that are not below the power, and
the power rounds to this one, so that its shortest decimal is not below the power either.

* `pow_le_value_iff` : leading digits and powers of ten;
* `Boundary`, `Boundary.le_shortest_iff` : a power of ten that the shortest decimals of doubles are
  above if the doubles are;
* `positional_iff` : the doubles that are written positionally.
-/

namespace DotBuilder

/-! ## Leading digits -/

namespace Decimal

variable {n : Nat} {e k : Int}

theorem pow_le_pow_iff {i j : Int} : value ⟨1, i⟩ ≤ value ⟨1, j⟩ ↔ i ≤ j := by
  simp only [value, Nat.cast_one, one_mul]
  exact zpow_le_zpow_iff_right₀ (by norm_num)

/-- The power of ten of the leading digit is the largest that a number is not below. -/
theorem pow_le_value_iff (hn : n ≠ 0) :
    value ⟨1, k⟩ ≤ value ⟨n, e⟩ ↔ k ≤ e + (natChars n).length - 1 := by
  have hpos : 0 < (natChars n).length := List.length_pos_iff.2 (natChars_ne_nil n)
  obtain ⟨m, hm⟩ := Nat.exists_eq_succ_of_ne_zero hpos.ne'
  have hlt : n < 10 ^ (m + 1) :=
    (Nat.length_toDigits_le_iff (by decide) (by omega)).1 hm.le
  have hge : 10 ^ m ≤ n := by
    by_contra hlt
    rcases Nat.eq_zero_or_pos m with rfl | hmpos
    · omega
    · have := (Nat.length_toDigits_le_iff (by decide) hmpos).2 (Nat.lt_of_not_le hlt)
      unfold natChars at hm
      omega
  have hlow : value ⟨1, e + m⟩ ≤ value ⟨n, e⟩ := by
    rw [← value_mul_pow, Nat.mul_one]
    exact value_le_value_iff.2 hge
  have hhigh : value ⟨n, e⟩ < value ⟨1, e + (m + 1 : ℕ)⟩ := by
    rw [← value_mul_pow, Nat.mul_one, ← not_le, value_le_value_iff]
    omega
  rw [hm]
  constructor
  · intro hk
    have hlt := lt_of_le_of_lt hk hhigh
    rw [← not_le, pow_le_pow_iff] at hlt
    omega
  · intro hk
    refine le_trans (pow_le_pow_iff.2 ?_) hlow
    omega

end Decimal

open Decimal (pow_le_value_iff pow_le_pow_iff value_le_value_iff)
open RoundingInterval (gridStep gridUnit)

namespace Binary64

variable {x p z : Binary64} {k : Int}

/-! ## Powers of ten between doubles -/

/-- A power of ten is above a double, and the next double is not below the power, which rounds to
it. -/
structure Boundary (p z : Binary64) (k : Int) : Prop where
  next : z.rank = p.rank + 1
  below : p.magnitude < Decimal.value ⟨1, k⟩
  above : Decimal.value ⟨1, k⟩ ≤ z.magnitude
  contains : z.interval.Contains (Decimal.value ⟨1, k⟩)
  low_lt : z.interval.low < scaled (Decimal.value ⟨1, k⟩)

/-- All of this can be tested in natural numbers. -/
theorem Boundary.of_nat (hnext : z.rank = p.rank + 1)
    (hbelow : p.interval.value * gridUnit k < 1 * gridStep k)
    (habove : 1 * gridStep k ≤ z.interval.value * gridUnit k)
    (hholds : z.interval.holds 1 k = true)
    (hlow : z.interval.low * gridUnit k < 1 * gridStep k) : Boundary p z k where
  next := hnext
  below := by
    rw [← scaled_lt_scaled, scaled_magnitude, ← not_le, RoundingInterval.scaled_value_le_iff]
    omega
  above := by
    rw [← scaled_le_scaled, scaled_magnitude, RoundingInterval.scaled_value_le_iff]
    exact habove
  contains := RoundingInterval.holds_iff.1 hholds
  low_lt := by
    rw [← not_le, RoundingInterval.scaled_value_le_iff]
    omega

namespace Boundary

theorem le_magnitude_iff (h : Boundary p z k) :
    Decimal.value ⟨1, k⟩ ≤ x.magnitude ↔ z.rank ≤ x.rank := by
  constructor
  · intro hle
    by_contra hlt
    have hp : p.rank < x.rank := magnitude_lt_iff.1 (lt_of_lt_of_le h.below hle)
    have := h.next
    omega
  · intro hle
    refine h.above.trans (le_of_not_gt fun hlt => ?_)
    have := magnitude_lt_iff.1 hlt
    omega

/-- **At a boundary the shortest decimals of doubles are on the side of the doubles.** -/
theorem le_shortest_iff (h : Boundary p z k) (hx : x.isFinite = true) (hs : x.significand ≠ 0) :
    Decimal.value ⟨1, k⟩ ≤ x.shortest.value ↔ Decimal.value ⟨1, k⟩ ≤ x.magnitude := by
  have hshortest := contains_shortest hx
  rw [h.le_magnitude_iff]
  constructor
  · intro hle
    by_contra hlt
    have hends : (x.interval.high : ℚ) ≤ z.interval.low := by
      exact_mod_cast high_le_low (Nat.lt_of_not_le hlt)
    have hscaled := scaled_le_scaled.2 hle
    have := h.low_lt
    have := hshortest.le_high
    linarith
  · intro hle
    rcases Nat.lt_or_eq_of_le hle with hlt | heq
    · have hends : (z.interval.high : ℚ) ≤ x.interval.low := by
        exact_mod_cast high_le_low hlt
      rw [← scaled_le_scaled]
      have := h.contains.le_high
      have := hshortest.low_le
      linarith
    · -- the power rounds to the double, so the shortest decimal is on no finer a grid
      have hpow : x.interval.Contains (Decimal.value ⟨1, k⟩) := by
        rw [← interval_eq_of_rank_eq heq]
        exact h.contains
      have hcoefficient := coefficient_ne_zero_of_contains hs hshortest
      refine (pow_le_pow_iff.2 (exponent_le_shortest hx hs le_rfl hpow)).trans ?_
      exact value_le_value_iff.2 (Nat.one_le_iff_ne_zero.2 hcoefficient)

end Boundary

theorem boundary_ten_thousandth : Boundary ⟨0x3F1A36E2EB1C432C⟩ ⟨0x3F1A36E2EB1C432D⟩ (-4) :=
  .of_nat (by decide) (by decide +kernel) (by decide +kernel) (by decide +kernel)
    (by decide +kernel)

theorem boundary_ten_pow_sixteen : Boundary ⟨0x4341C37937E07FFF⟩ ⟨0x4341C37937E08000⟩ 16 :=
  .of_nat (by decide) (by decide +kernel) (by decide +kernel) (by decide +kernel)
    (by decide +kernel)

/-! ## The range -/

/-- The double is zero, or its magnitude is from a ten thousandth up to below ten to the
sixteenth. -/
def Moderate (x : Binary64) : Prop :=
  x.magnitude = 0 ∨ 1 / 10000 ≤ x.magnitude ∧ x.magnitude < 10 ^ 16

theorem magnitude_eq_zero_iff : x.magnitude = 0 ↔ x.significand = 0 := by
  simp [magnitude]

/-- **The finite doubles that are written positionally are those of a moderate size.** -/
theorem positional_iff (hx : x.isFinite = true) :
    Value.floatLayout.Positional x.shortest ↔ x.Moderate := by
  have hlow : Decimal.value ⟨1, -4⟩ = 1 / 10000 := by
    norm_num [Decimal.value]
  have hhigh : Decimal.value ⟨1, 16⟩ = 10 ^ 16 := by
    norm_num [Decimal.value]
  unfold Moderate Layout.Positional
  rw [magnitude_eq_zero_iff]
  by_cases hs : x.significand = 0
  · rw [shortest_of_significand_eq_zero hs]
    simp only [hs, true_or, iff_true]
    decide
  · have hcoefficient := coefficient_ne_zero_of_contains hs (contains_shortest hx)
    have hlower := boundary_ten_thousandth.le_shortest_iff hx hs
    have hupper := not_congr (boundary_ten_pow_sixteen.le_shortest_iff hx hs)
    rw [pow_le_value_iff hcoefficient] at hlower hupper
    rw [not_le, not_le] at hupper
    rw [← hlow, ← hhigh, ← hlower, ← hupper]
    simp [Value.floatLayout, hs]

end Binary64

end DotBuilder
