import DotBuilder.Number.Binary64
import Mathlib.Tactic.Ring

/-!
# The order of the doubles

The bits of a double without the sign, read as one number, are its rank.  Ranks order the doubles of
one sign by their magnitudes, the infinity being the last, and where one rounding interval ends the
next one begins.

* `rank`, `ext_rank`, `exists_rank_eq` : a double is its sign and its rank;
* `significand_mod_two` : a significand is even exactly if the rank is;
* `units`, `units_next`, `succ_units_le`, `units_lt_iff` : magnitudes grow with ranks, each step by
  one unit of the significand below;
* `low_next` : the intervals of neighbours meet;
* `two_mul_high_le`, `le_two_mul_low` : and lie half way between them, or nearer.
-/

namespace DotBuilder.Binary64

variable {x y : Binary64}

/-! ## Ranks -/

/-- The bits of a double without its sign, as a number. -/
def rank (x : Binary64) : Nat := x.bits.toNat % 2 ^ 63

theorem rank_eq (x : Binary64) : x.rank = x.biased * 2 ^ 52 + x.fraction := by
  simp only [rank, biased, fraction, Nat.pow_eq]
  omega

theorem biased_eq (x : Binary64) : x.biased = x.rank / 2 ^ 52 := by
  have hf : x.fraction < 2 ^ 52 := x.fraction_lt
  rw [rank_eq]
  omega

theorem fraction_eq (x : Binary64) : x.fraction = x.rank % 2 ^ 52 := by
  have hf : x.fraction < 2 ^ 52 := x.fraction_lt
  rw [rank_eq]
  omega

theorem rank_lt (x : Binary64) : x.rank < 2 ^ 63 := Nat.mod_lt _ (by decide)

theorem bits_toNat (x : Binary64) :
    x.bits.toNat = (if x.negative = true then 2 ^ 63 else 0) + x.rank := by
  have hlt : x.bits.toNat < 2 ^ 64 := x.bits.toNat_lt
  simp only [negative, rank, Nat.pow_eq, decide_eq_true_eq]
  split <;> omega

/-- A double is known from its sign and its rank. -/
theorem ext_rank (hs : x.negative = y.negative) (hr : x.rank = y.rank) : x = y := by
  have hbits : x.bits.toNat = y.bits.toNat := by rw [bits_toNat, bits_toNat, hs, hr]
  cases x
  cases y
  exact congrArg mk (UInt64.toNat_inj.1 hbits)

theorem exists_rank_eq {r : Nat} (hr : r < 2 ^ 63) : ∃ x : Binary64, x.rank = r := by
  refine ⟨⟨UInt64.ofNat r⟩, ?_⟩
  rw [rank, UInt64.toNat_ofNat']
  omega

/-- The finite doubles stand before the infinities, and these before what is no number. -/
theorem isFinite_iff : x.isFinite = true ↔ x.rank < 2047 * 2 ^ 52 := by
  have hb : x.biased < 2 ^ 11 := x.biased_lt
  have hf : x.fraction < 2 ^ 52 := x.fraction_lt
  rw [isFinite, decide_eq_true_eq, rank_eq]
  omega

theorem isNaN_eq_false_iff : x.isNaN = false ↔ x.rank ≤ 2047 * 2 ^ 52 := by
  have hb : x.biased < 2 ^ 11 := x.biased_lt
  have hf : x.fraction < 2 ^ 52 := x.fraction_lt
  rw [isNaN, Bool.and_eq_false_iff, decide_eq_false_iff_not, decide_eq_false_iff_not, rank_eq]
  omega

theorem isNaN_of_isFinite (h : x.isFinite = true) : x.isNaN = false := by
  have := isFinite_iff.1 h
  exact isNaN_eq_false_iff.2 (by omega)

/-! ## Significands -/

theorem significand_of_biased_eq_zero (h : x.biased = 0) : x.significand = x.fraction := if_pos h

theorem significand_of_biased_ne_zero (h : x.biased ≠ 0) :
    x.significand = 2 ^ 52 + x.fraction := if_neg h

/-- The leading one does not count for whether a significand is even. -/
theorem significand_mod_two (x : Binary64) : x.significand % 2 = x.rank % 2 := by
  rw [rank_eq]
  by_cases h : x.biased = 0
  · rw [significand_of_biased_eq_zero h, h]
    omega
  · rw [significand_of_biased_ne_zero h]
    omega

/-! ## Magnitudes -/

/-- The magnitude in units of `2 ^ (-1074)`. -/
def units (x : Binary64) : Nat := x.significand * 2 ^ x.scale

theorem succ_units_le_pow (x : Binary64) :
    (x.significand + 1) * 2 ^ x.scale ≤ 2 ^ 52 * 2 ^ x.biased := by
  have hf : x.fraction < 2 ^ 52 := x.fraction_lt
  unfold scale
  by_cases h : x.biased = 0
  · rw [significand_of_biased_eq_zero h, h]
    omega
  · obtain ⟨b, hb⟩ := Nat.exists_eq_succ_of_ne_zero h
    rw [significand_of_biased_ne_zero h, hb, Nat.succ_sub_one]
    calc (2 ^ 52 + x.fraction + 1) * 2 ^ b
        ≤ (2 ^ 52 * 2) * 2 ^ b := Nat.mul_le_mul_right _ (by omega)
      _ = 2 ^ 52 * 2 ^ (b + 1) := by rw [Nat.mul_assoc, Nat.mul_comm 2, ← Nat.pow_succ]

theorem pow_le_units (h : x.biased ≠ 0) : 2 ^ 52 * 2 ^ (x.biased - 1) ≤ x.units := by
  unfold units scale
  rw [significand_of_biased_ne_zero h]
  exact Nat.mul_le_mul_right _ (Nat.le_add_right ..)

/-- A double of higher rank is larger by one unit of the significand at least. -/
theorem succ_units_le (h : x.rank < y.rank) : (x.significand + 1) * 2 ^ x.scale ≤ y.units := by
  have hfx : x.fraction < 2 ^ 52 := x.fraction_lt
  have hfy : y.fraction < 2 ^ 52 := y.fraction_lt
  rw [rank_eq, rank_eq] at h
  by_cases hb : x.biased = y.biased
  · have hsucc : x.significand + 1 ≤ y.significand := by
      simp only [significand, hb]
      split <;> omega
    unfold units scale
    rw [hb]
    exact Nat.mul_le_mul_right _ hsucc
  · have hlt : x.biased < y.biased := by omega
    calc (x.significand + 1) * 2 ^ x.scale
        ≤ 2 ^ 52 * 2 ^ x.biased := x.succ_units_le_pow
      _ ≤ 2 ^ 52 * 2 ^ (y.biased - 1) :=
          Nat.mul_le_mul_left _ (Nat.pow_le_pow_right (by decide) (by omega))
      _ ≤ y.units := pow_le_units (by omega)

theorem units_lt_of_rank_lt (h : x.rank < y.rank) : x.units < y.units := by
  refine Nat.lt_of_lt_of_le ?_ (succ_units_le h)
  exact Nat.mul_lt_mul_of_pos_right (Nat.lt_succ_self _) (Nat.two_pow_pos _)

theorem fields_eq_of_rank_eq (h : x.rank = y.rank) :
    x.biased = y.biased ∧ x.fraction = y.fraction := by
  rw [x.biased_eq, x.fraction_eq, h, ← biased_eq, ← fraction_eq]
  exact ⟨rfl, rfl⟩

theorem units_eq_of_rank_eq (h : x.rank = y.rank) : x.units = y.units := by
  obtain ⟨hb, hf⟩ := fields_eq_of_rank_eq h
  unfold units significand scale
  rw [hb, hf]

/-- **Ranks order the doubles by their magnitudes.** -/
theorem units_lt_iff : x.units < y.units ↔ x.rank < y.rank := by
  constructor
  · intro h
    by_contra hle
    rcases Nat.lt_or_eq_of_le (Nat.not_lt.1 hle) with hlt | heq
    · have := units_lt_of_rank_lt hlt
      omega
    · have := units_eq_of_rank_eq heq
      omega
  · exact units_lt_of_rank_lt

theorem units_eq_iff : x.units = y.units ↔ x.rank = y.rank := by
  have hlt := units_lt_iff (x := x) (y := y)
  have hgt := units_lt_iff (x := y) (y := x)
  omega

/-! ## Neighbours -/

theorem narrowBelow_iff : x.narrowBelow = true ↔ x.fraction = 0 ∧ 1 < x.biased := by
  rw [narrowBelow, Bool.and_eq_true, decide_eq_true_iff, decide_eq_true_iff]

/-- The next double has the next significand at the same scale, or, at the powers of two above the
least exponent, half of it at the next scale. -/
theorem next_cases (h : y.rank = x.rank + 1) :
    y.scale = x.scale ∧ y.significand = x.significand + 1 ∧ ¬ y.narrowBelow = true ∨
      y.scale = x.scale + 1 ∧ 2 * y.significand = x.significand + 1 ∧ y.narrowBelow = true := by
  have hfx : x.fraction < 2 ^ 52 := x.fraction_lt
  have hfy : y.fraction < 2 ^ 52 := y.fraction_lt
  rw [rank_eq, rank_eq] at h
  rw [narrowBelow_iff]
  unfold scale
  by_cases hx : x.biased = 0
  · left
    rw [significand_of_biased_eq_zero hx]
    by_cases hy : y.biased = 0
    · rw [significand_of_biased_eq_zero hy]
      omega
    · rw [significand_of_biased_ne_zero hy]
      omega
  · have hy : y.biased ≠ 0 := by omega
    rw [significand_of_biased_ne_zero hx, significand_of_biased_ne_zero hy]
    omega

/-- The next double is larger by one unit of the significand. -/
theorem units_next (h : y.rank = x.rank + 1) :
    y.units = (x.significand + 1) * 2 ^ x.scale := by
  unfold units
  rcases next_cases h with ⟨hs, hm, -⟩ | ⟨hs, hm, -⟩
  · rw [hs, hm]
  · rw [hs, ← hm, Nat.pow_succ]
    ring

/-! ## Rounding intervals -/

theorem interval_value (x : Binary64) : x.interval.value = 4 * x.units := by
  show 4 * x.significand * 2 ^ x.scale = _
  rw [units, Nat.mul_assoc]

theorem interval_high (x : Binary64) : x.interval.high = 4 * x.units + 2 * 2 ^ x.scale := by
  show (4 * x.significand + 2) * 2 ^ x.scale = _
  rw [units]
  ring

theorem interval_closed (x : Binary64) : x.interval.closed = true ↔ x.rank % 2 = 0 := by
  show decide (x.significand % 2 = 0) = true ↔ _
  rw [decide_eq_true_iff, significand_mod_two]

/-- Nothing is below zero. -/
theorem interval_low_of_rank_eq_zero (h : x.rank = 0) : x.interval.low = 0 := by
  have hm : x.significand = 0 := by
    have hb : x.biased = 0 := by rw [biased_eq, h, Nat.zero_div]
    rw [significand_of_biased_eq_zero hb, fraction_eq, h, Nat.zero_mod]
  show (4 * x.significand - if x.narrowBelow = true then 1 else 2) * 2 ^ x.scale = 0
  rw [hm, Nat.mul_zero, Nat.zero_sub, Nat.zero_mul]

/-- **The interval of a double begins where that of the one before ends.** -/
theorem low_next (h : y.rank = x.rank + 1) : y.interval.low = x.interval.high := by
  show (4 * y.significand - if y.narrowBelow = true then 1 else 2) * 2 ^ y.scale =
    (4 * x.significand + 2) * 2 ^ x.scale
  rcases next_cases h with ⟨hs, hm, hnarrow⟩ | ⟨hs, hm, hnarrow⟩
  · rw [if_neg hnarrow, hs, hm]
    congr 1
  · -- the quarter of the larger gap is the half of the smaller one
    have hends : 4 * x.significand + 2 = (4 * y.significand - 1) * 2 := by omega
    rw [if_pos hnarrow, hs, hends, Nat.pow_succ]
    ring

/-- The upper end is not above the middle between a number and a larger one. -/
theorem two_mul_high_le (h : x.rank < y.rank) :
    2 * x.interval.high ≤ x.interval.value + y.interval.value := by
  have hle : x.units + 2 ^ x.scale ≤ y.units := by
    have := succ_units_le h
    rwa [Nat.succ_mul] at this
  rw [interval_high, interval_value, interval_value]
  omega

/-- It is the middle between a number and the next one. -/
theorem two_mul_high_eq (h : y.rank = x.rank + 1) :
    2 * x.interval.high = x.interval.value + y.interval.value := by
  have heq : y.units = x.units + 2 ^ x.scale := by rw [units_next h, Nat.succ_mul, units]
  rw [interval_high, interval_value, interval_value]
  omega

/-- The lower end is not below the middle between a number and a smaller one. -/
theorem le_two_mul_low (h : y.rank < x.rank) :
    x.interval.value + y.interval.value ≤ 2 * x.interval.low := by
  have hlt := x.rank_lt
  obtain ⟨p, hp⟩ := exists_rank_eq (r := x.rank - 1) (by omega)
  have hnext : x.rank = p.rank + 1 := by omega
  have hmiddle := two_mul_high_eq hnext
  have hle : y.units ≤ p.units := by
    by_contra hlt
    have := units_lt_iff.1 (Nat.not_le.1 hlt)
    omega
  rw [low_next hnext]
  rw [interval_value] at hmiddle ⊢
  rw [interval_value] at hmiddle ⊢
  omega

/-- The interval does not depend on the sign. -/
theorem interval_eq_of_rank_eq (h : x.rank = y.rank) : x.interval = y.interval := by
  obtain ⟨hb, hf⟩ := fields_eq_of_rank_eq h
  unfold interval significand scale narrowBelow
  rw [hb, hf]

/-- The ends of an interval of lower rank are not above those of a higher one. -/
theorem high_le_low (h : x.rank < y.rank) : x.interval.high ≤ y.interval.low := by
  have hhigh := two_mul_high_le h
  have hlow := le_two_mul_low h
  omega

end DotBuilder.Binary64
