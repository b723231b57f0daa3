import DotBuilder.Number.Shortest
import DotBuilder.Proofs.Number.Rounding
import Mathlib.Data.Nat.Digits.Lemmas
import Mathlib.Data.Nat.Factorization.Basic

/-!
# The search for the shortest decimal

The search ends on the coarsest grid that has a point in the rounding interval.  No decimal in the
interval has fewer significant digits than the point that it ends at: between a number of few digits
on a finer grid and one of more digits on the coarsest there is a power of ten, which would be in
the interval as well and on a coarser grid still.

* `Decimal.value`, `Decimal.significantDigits` : the number that a decimal stands for, and how many
  digits it has between the first and the last that is not zero;
* `RoundingInterval.holds_iff` : the test in natural numbers is that of the interval;
* `nearest?_cases`, `not_contains_of_nearest?_eq_none` : what looking at a grid finds out;
* `search_spec`, `le_coarsest` : which grids the search goes through;
* `contains_shortest`, `exponent_le_shortest`, `significantDigits_shortest_le` : the shortest
  decimal rounds to the double, is on the coarsest grid, and has the fewest digits.
-/

namespace DotBuilder

/-! ## Decimals -/

namespace Decimal

/-- The number that a decimal stands for. -/
def value (d : Decimal) : ℚ := d.coefficient * 10 ^ d.exponent

/-- The number of digits without the zeros at both ends. -/
def significantDigits (d : Decimal) : Nat :=
  ((Nat.digits 10 d.coefficient).dropWhile fun c => decide (c = 0)).length

variable {d d' : Decimal} {n : Nat} {e : Int}

theorem ten_zpow_pos (e : Int) : (0 : ℚ) < 10 ^ e := zpow_pos (by norm_num) e

theorem value_nonneg (d : Decimal) : 0 ≤ d.value :=
  mul_nonneg (Nat.cast_nonneg _) (ten_zpow_pos _).le

theorem value_le_value_iff {m : Nat} : value ⟨n, e⟩ ≤ value ⟨m, e⟩ ↔ n ≤ m := by
  show (n : ℚ) * 10 ^ e ≤ m * 10 ^ e ↔ n ≤ m
  rw [mul_le_mul_iff_of_pos_right (ten_zpow_pos e), Nat.cast_le]

theorem value_eq_zero_iff : d.value = 0 ↔ d.coefficient = 0 := by
  unfold value
  rw [mul_eq_zero, or_iff_left (ten_zpow_pos _).ne', Nat.cast_eq_zero]

/-- Zeros at the end can be moved to the exponent. -/
theorem value_mul_pow (n k : Nat) (e : Int) : value ⟨10 ^ k * n, e⟩ = value ⟨n, e + k⟩ := by
  show ((10 ^ k * n : ℕ) : ℚ) * 10 ^ e = n * 10 ^ (e + k)
  rw [zpow_add₀ (by norm_num), zpow_natCast]
  push_cast
  ring

theorem significantDigits_mul_pow (n k : Nat) (e e' : Int) :
    significantDigits ⟨10 ^ k * n, e⟩ = significantDigits ⟨n, e'⟩ := by
  unfold significantDigits
  rcases Nat.eq_zero_or_pos n with rfl | hn
  · rw [Nat.mul_zero]
  · rw [Nat.digits_base_pow_mul (by norm_num) hn]
    congr 1
    induction k with
    | zero => rfl
    | succ k ih => simp [List.replicate_succ, ih]

/-- The number of significant digits is that of the number, however it is written. -/
theorem significantDigits_congr (h : d.value = d'.value) :
    d.significantDigits = d'.significantDigits := by
  wlog hle : d.exponent ≤ d'.exponent generalizing d d'
  · exact (this h.symm (le_of_not_ge hle)).symm
  obtain ⟨k, hk⟩ := Int.eq_ofNat_of_zero_le (Int.sub_nonneg_of_le hle)
  have hexp : d'.exponent = d.exponent + k := by omega
  have hvalue :
      value ⟨d.coefficient, d.exponent⟩ = value ⟨10 ^ k * d'.coefficient, d.exponent⟩ := by
    rw [value_mul_pow, ← hexp]
    exact h
  have hcoefficient : d.coefficient = 10 ^ k * d'.coefficient := by
    have hcast := mul_right_cancel₀ (ten_zpow_pos d.exponent).ne' hvalue
    exact_mod_cast hcast
  calc d.significantDigits = significantDigits ⟨10 ^ k * d'.coefficient, d.exponent⟩ := by
        rw [← hcoefficient]
    _ = d'.significantDigits := significantDigits_mul_pow ..

theorem significantDigits_le_length (n : Nat) (e : Int) :
    significantDigits ⟨n, e⟩ ≤ (Nat.digits 10 n).length :=
  (List.dropWhile_sublist _).length_le

/-- A decimal other than zero is a number of as many digits as are significant, times a power of
ten. -/
theorem exists_value_eq (hd : d.coefficient ≠ 0) :
    ∃ n e, 1 ≤ n ∧ n < 10 ^ d.significantDigits ∧ value ⟨n, e⟩ = d.value := by
  obtain ⟨k, n, hn, hk⟩ := Nat.exists_eq_pow_mul_and_not_dvd hd 10 (by norm_num)
  have hpos : 1 ≤ n := by
    rcases Nat.eq_zero_or_pos n with rfl | hpos
    · exact absurd (Nat.dvd_zero 10) hn
    · exact hpos
  refine ⟨n, d.exponent + k, hpos, ?_, ?_⟩
  · have hsig : d.significantDigits = significantDigits ⟨n, d.exponent⟩ := by
      rw [← significantDigits_mul_pow n k d.exponent, ← hk]
    have hdigits : significantDigits ⟨n, d.exponent⟩ = (Nat.digits 10 n).length := by
      -- the last digit is not zero
      unfold significantDigits
      rw [Nat.digits_def' (by norm_num) hpos, List.dropWhile_cons_of_neg]
      simpa [Nat.dvd_iff_mod_eq_zero] using hn
    rw [hsig, hdigits]
    exact Nat.lt_base_pow_length_digits (by norm_num)
  · rw [← value_mul_pow, ← hk]

end Decimal

open Decimal (ten_zpow_pos value_le_value_iff)

/-! ## Looking at a grid -/

namespace RoundingInterval

variable {I : RoundingInterval} {n steps : Nat} {e k : Int} {q : ℚ}

theorem natPow_eq (m n : Nat) : Nat.pow m n = m ^ n := rfl

/-- The gap between the points of a grid, as a multiple of `gridUnit` in the units of intervals. -/
def gridStep (e : Int) : Nat := 10 ^ e.toNat * 2 ^ 1076

/-- The fraction of the unit of intervals that makes the points of a grid natural numbers. -/
def gridUnit (e : Int) : Nat := 10 ^ (-e).toNat

theorem gridStep_pos (e : Int) : 0 < gridStep e :=
  Nat.mul_pos (pow_pos (by decide) _) (pow_pos (by decide) 1076)

theorem gridUnit_pos (e : Int) : 0 < gridUnit e := pow_pos (by decide) _

theorem scaled_value_mul (n : Nat) (e : Int) :
    scaled (Decimal.value ⟨n, e⟩) * gridUnit e = n * gridStep e := by
  have hpow : (10 : ℚ) ^ e * 10 ^ (-e).toNat = 10 ^ e.toNat := by
    rw [← zpow_natCast, ← zpow_natCast, ← zpow_add₀ (by norm_num)]
    congr 1
    omega
  have hunit : (gridUnit e : ℚ) = 10 ^ (-e).toNat := Nat.cast_pow ..
  have hstep : (gridStep e : ℚ) = 10 ^ e.toNat * 2 ^ 1076 := by
    unfold gridStep
    rw [Nat.cast_mul]
    exact congrArg₂ _ (Nat.cast_pow 10 _) (Nat.cast_pow 2 1076)
  unfold scaled Decimal.value
  rw [hunit, hstep, ← hpow]
  generalize (2 : ℚ) ^ 1076 = u
  ring

theorem le_scaled_value_iff (a n : Nat) (e : Int) :
    (a : ℚ) ≤ scaled (Decimal.value ⟨n, e⟩) ↔ a * gridUnit e ≤ n * gridStep e := by
  have hunit : (0 : ℚ) < gridUnit e := Nat.cast_pos.2 (gridUnit_pos e)
  rw [← mul_le_mul_iff_of_pos_right hunit, scaled_value_mul]
  exact_mod_cast Iff.rfl

theorem scaled_value_le_iff (a n : Nat) (e : Int) :
    scaled (Decimal.value ⟨n, e⟩) ≤ (a : ℚ) ↔ n * gridStep e ≤ a * gridUnit e := by
  have hunit : (0 : ℚ) < gridUnit e := Nat.cast_pos.2 (gridUnit_pos e)
  rw [← mul_le_mul_iff_of_pos_right hunit, scaled_value_mul]
  exact_mod_cast Iff.rfl

theorem holds_eq (I : RoundingInterval) (n : Nat) (e : Int) :
    I.holds n e =
      if I.closed then
        decide (I.low * gridUnit e ≤ n * gridStep e) &&
          decide (n * gridStep e ≤ I.high * gridUnit e)
      else
        decide (I.low * gridUnit e < n * gridStep e) &&
          decide (n * gridStep e < I.high * gridUnit e) := by
  unfold holds gridStep gridUnit
  simp only [natPow_eq, Nat.mul_assoc, -Nat.reducePow]

/-- **The test for a decimal is whether it lies in the interval.** -/
theorem holds_iff : I.holds n e = true ↔ I.Contains (Decimal.value ⟨n, e⟩) := by
  rw [holds_eq]
  unfold Contains
  split
  · rw [Bool.and_eq_true, decide_eq_true_iff, decide_eq_true_iff, le_scaled_value_iff,
      scaled_value_le_iff]
  · rw [Bool.and_eq_true, decide_eq_true_iff, decide_eq_true_iff, ← not_le, ← not_le, ← not_le,
      ← not_le, le_scaled_value_iff, scaled_value_le_iff]

/-- The point of a grid that is next to the number of an interval and not above it. -/
def pointBelow (I : RoundingInterval) (e : Int) : Nat := I.value * gridUnit e / gridStep e

theorem pointBelow_le (I : RoundingInterval) (e : Int) :
    scaled (Decimal.value ⟨I.pointBelow e, e⟩) ≤ I.value := by
  rw [scaled_value_le_iff]
  exact Nat.div_mul_le_self ..

theorem le_succ_pointBelow (I : RoundingInterval) (e : Int) :
    I.value ≤ scaled (Decimal.value ⟨I.pointBelow e + 1, e⟩) := by
  rw [le_scaled_value_iff, Nat.mul_comm _ (gridStep e)]
  exact (Nat.lt_mul_div_succ _ (gridStep_pos e)).le

/-- Looking at a grid tests the two points that are next to the number. -/
theorem nearest?_cases (I : RoundingInterval) (e : Int) :
    (I.holds (I.pointBelow e) e = false ∧ I.holds (I.pointBelow e + 1) e = false ∧
      I.nearest? e = none) ∨ ∃ n, I.holds n e = true ∧ I.nearest? e = some n := by
  unfold nearest?
  extract_lets num den n
  have hn : I.pointBelow e = n := by
    unfold n num den pointBelow gridStep gridUnit
    simp only [natPow_eq, -Nat.reducePow]
  rw [hn]
  clear_value n num den
  cases hbelow : I.holds n e <;> cases habove : I.holds (n + 1) e <;> dsimp only
  · exact .inl ⟨rfl, rfl, rfl⟩
  · exact .inr ⟨n + 1, habove, rfl⟩
  · exact .inr ⟨n, hbelow, rfl⟩
  · right
    split
    · exact ⟨n, hbelow, rfl⟩
    · split
      · exact ⟨n + 1, habove, rfl⟩
      · split
        · exact ⟨n, hbelow, rfl⟩
        · exact ⟨n + 1, habove, rfl⟩

theorem contains_of_nearest?_eq_some (h : I.nearest? e = some n) :
    I.Contains (Decimal.value ⟨n, e⟩) := by
  obtain ⟨-, -, hnone⟩ | ⟨m, hm, hsome⟩ := I.nearest?_cases e
  · rw [h] at hnone
    cases hnone
  · rw [h] at hsome
    cases hsome
    exact holds_iff.1 hm

/-- **A grid that shows nothing has no point in the interval**: else one of the two that are next to
the number would be in it. -/
theorem not_contains_of_nearest?_eq_none (hq : I.Contains q) (hvalue : scaled q = I.value)
    (h : I.nearest? e = none) (n : Nat) : ¬ I.Contains (Decimal.value ⟨n, e⟩) := by
  intro hn
  obtain ⟨hbelow, habove, -⟩ | ⟨m, -, hsome⟩ := I.nearest?_cases e
  swap
  · rw [h] at hsome
    cases hsome
  rw [← Bool.not_eq_true, holds_iff] at hbelow habove
  rcases Nat.lt_or_ge (I.pointBelow e) n with hlt | hle
  · refine habove (hq.between hn ?_ (value_le_value_iff.2 hlt))
    rw [← scaled_le_scaled, hvalue]
    exact I.le_succ_pointBelow e
  · refine hbelow (hn.between hq (value_le_value_iff.2 hle) ?_)
    rw [← scaled_le_scaled, hvalue]
    exact I.pointBelow_le e

/-! ## The search -/

/-- The search ends at the first grid that shows a point. -/
theorem search_spec (hlow : e - steps < k) (hhigh : k ≤ e) (hk : I.nearest? k ≠ none) :
    I.nearest? (I.search steps e).exponent = some (I.search steps e).coefficient ∧
      ∀ i ≤ e, (I.search steps e).exponent < i → I.nearest? i = none := by
  induction steps generalizing e with
  | zero => omega
  | succ steps ih =>
    rw [search]
    cases hnearest : I.nearest? e with
    | some n => exact ⟨hnearest, fun i hi hlt => by dsimp only at hlt; omega⟩
    | none =>
      have hne : k ≠ e := fun heq => hk (heq ▸ hnearest)
      obtain ⟨hfound, hbefore⟩ := ih (e := e - 1) (by omega) (by omega)
      refine ⟨hfound, fun i hi hlt => ?_⟩
      rcases eq_or_ne i e with rfl | hi'
      · exact hnearest
      · exact hbefore i (by omega) hlt

/-- No grid before the first one that the search looks at has a point in the interval, zero
aside. -/
theorem le_coarsest (h : I.Contains (Decimal.value ⟨n, e⟩)) (hn : 1 ≤ n) : e ≤ I.coarsest := by
  have hone : scaled (Decimal.value ⟨1, e⟩) ≤ I.high :=
    (scaled_le_scaled.2 (value_le_value_iff.2 hn)).trans h.le_high
  have hhigh : I.high < 10 ^ (Nat.toDigits 10 I.high).length :=
    (Nat.length_toDigits_le_iff (by decide) Nat.length_toDigits_pos).1 le_rfl
  have hunit : 10 ^ 323 ≤ 2 ^ 1076 := by decide +kernel
  unfold coarsest
  generalize (Nat.toDigits 10 I.high).length = digits at hhigh
  by_contra hlt
  rw [scaled_value_le_iff, Nat.one_mul] at hone
  have hpow : 10 ^ e.toNat * 10 ^ 323 < 10 ^ digits * 10 ^ (-e).toNat :=
    calc 10 ^ e.toNat * 10 ^ 323 ≤ gridStep e := Nat.mul_le_mul_left _ hunit
      _ ≤ I.high * gridUnit e := hone
      _ < 10 ^ digits * 10 ^ (-e).toNat := Nat.mul_lt_mul_of_pos_right hhigh (gridUnit_pos e)
  rw [← pow_add, ← pow_add, Nat.pow_lt_pow_iff_right (by decide)] at hpow
  omega

theorem neg_le_coarsest (I : RoundingInterval) : -323 ≤ I.coarsest := by
  have : 0 < (Nat.toDigits 10 I.high).length := Nat.length_toDigits_pos
  unfold coarsest
  omega

end RoundingInterval

/-! ## The shortest decimal -/

namespace Binary64

variable {x : Binary64} {d : Decimal} {n : Nat} {e : Int}

/-- A finite double rounds to itself. -/
theorem roundsTo_magnitude (hx : x.isFinite = true) : RoundsTo x.negative x.magnitude x where
  negative := rfl
  isNaN := isNaN_of_isFinite hx
  nearest _ := by
    rw [sub_self, abs_zero]
    exact abs_nonneg _
  even _ hne htie := by
    rw [sub_self, abs_zero, abs_eq_zero, sub_eq_zero] at htie
    exact absurd htie.symm hne

theorem contains_magnitude (hx : x.isFinite = true) : x.interval.Contains x.magnitude :=
  ((roundsTo_iff hx x.magnitude_nonneg).1 (roundsTo_magnitude hx)).2

/-- The finest grid that the search looks at has all doubles. -/
theorem value_finest (x : Binary64) :
    Decimal.value ⟨x.units * 5 ^ 1074, -1074⟩ = x.magnitude := by
  have hten : (10 : ℚ) ^ 1074 = 2 ^ 1074 * 5 ^ 1074 := by
    rw [← mul_pow]
    norm_num
  have hfive : (5 : ℚ) ^ 1074 ≠ 0 := by positivity
  show ((x.units * 5 ^ 1074 : ℕ) : ℚ) * 10 ^ (-((1074 : ℕ) : ℤ)) = (x.units : ℚ) / 2 ^ 1074
  rw [zpow_neg, zpow_natCast, hten, Nat.cast_mul, Nat.cast_pow 5 1074, Nat.cast_ofNat]
  generalize (5 : ℚ) ^ 1074 = f at hfive
  generalize (2 : ℚ) ^ 1074 = t
  rw [mul_inv, mul_assoc, mul_comm f, mul_assoc, inv_mul_cancel₀ hfive, mul_one, div_eq_mul_inv]

/-- What the search finds for a double other than zero. -/
theorem shortest_spec (hx : x.isFinite = true) (hs : x.significand ≠ 0) :
    x.interval.nearest? x.shortest.exponent = some x.shortest.coefficient ∧
      ∀ i ≤ x.interval.coarsest, x.shortest.exponent < i → x.interval.nearest? i = none := by
  have hcoarsest := x.interval.neg_le_coarsest
  have hfinest : x.interval.nearest? (-1074) ≠ none := by
    intro hnone
    refine RoundingInterval.not_contains_of_nearest?_eq_none (contains_magnitude hx)
      x.scaled_magnitude hnone (x.units * 5 ^ 1074) ?_
    rw [value_finest]
    exact contains_magnitude hx
  unfold shortest
  rw [if_neg hs]
  exact RoundingInterval.search_spec (by omega) (by omega) hfinest

theorem shortest_of_significand_eq_zero (hs : x.significand = 0) : x.shortest = ⟨0, 0⟩ :=
  if_pos hs

/-- **The shortest decimal rounds to the double.** -/
theorem contains_shortest (hx : x.isFinite = true) : x.interval.Contains x.shortest.value := by
  by_cases hs : x.significand = 0
  · have hzero : x.shortest.value = x.magnitude := by
      rw [shortest_of_significand_eq_zero hs, magnitude, hs, Nat.zero_mul, Nat.cast_zero, zero_div,
        Decimal.value_eq_zero_iff]
    rw [hzero]
    exact contains_magnitude hx
  · exact RoundingInterval.contains_of_nearest?_eq_some (shortest_spec hx hs).1

/-- Zero rounds to no other double. -/
theorem coefficient_ne_zero_of_contains (hs : x.significand ≠ 0)
    (h : x.interval.Contains d.value) : d.coefficient ≠ 0 := by
  intro hzero
  have hlow := h.low_le
  rw [Decimal.value_eq_zero_iff.2 hzero, scaled, zero_mul, ← Nat.cast_zero, Nat.cast_le] at hlow
  have hpos : 0 < x.interval.low := by
    show 0 < (4 * x.significand - if x.narrowBelow = true then 1 else 2) * 2 ^ x.scale
    refine Nat.mul_pos ?_ (Nat.two_pow_pos _)
    split <;> omega
  omega

/-- **It is on the coarsest grid that has a point that does.** -/
theorem exponent_le_shortest (hx : x.isFinite = true) (hs : x.significand ≠ 0) (hn : 1 ≤ n)
    (h : x.interval.Contains (Decimal.value ⟨n, e⟩)) : e ≤ x.shortest.exponent := by
  by_contra hlt
  have hnone := (shortest_spec hx hs).2 e (RoundingInterval.le_coarsest h hn) (by omega)
  exact RoundingInterval.not_contains_of_nearest?_eq_none (contains_magnitude hx)
    x.scaled_magnitude hnone n h

/-- **No decimal that rounds to a double has fewer significant digits than the shortest.** -/
theorem significantDigits_shortest_le (hx : x.isFinite = true)
    (h : x.interval.Contains d.value) :
    x.shortest.significantDigits ≤ d.significantDigits := by
  by_cases hs : x.significand = 0
  · rw [shortest_of_significand_eq_zero hs]
    exact Nat.zero_le _
  · obtain ⟨n, e, hn, hlt, hvalue⟩ :=
      Decimal.exists_value_eq (coefficient_ne_zero_of_contains hs h)
    rw [← hvalue] at h
    have hle : e ≤ x.shortest.exponent := exponent_le_shortest hx hs hn h
    generalize d.significantDigits = digits at hlt ⊢
    suffices hcoefficient : x.shortest.coefficient < 10 ^ digits from
      (Decimal.significantDigits_le_length ..).trans
        ((Nat.digits_length_le_iff (by decide) _).2 hcoefficient)
    by_contra hge
    -- then the power of ten above `n` is on a coarser grid
    have hpower : x.interval.Contains (Decimal.value ⟨1, x.shortest.exponent + digits⟩) := by
      refine h.between (contains_shortest hx) ?_ ?_
      · rw [← Decimal.value_mul_pow, Nat.mul_one]
        refine (value_le_value_iff.2 hlt.le).trans ?_
        exact mul_le_mul_of_nonneg_left (zpow_le_zpow_right₀ (by norm_num) hle)
          (Nat.cast_nonneg _)
      · rw [← Decimal.value_mul_pow, Nat.mul_one]
        exact value_le_value_iff.2 (Nat.le_of_not_lt hge)
    have hdigits := exponent_le_shortest hx hs le_rfl hpower
    have hzero : digits = 0 := by omega
    rw [hzero] at hlt
    omega

end Binary64

end DotBuilder
