import DotBuilder.Proofs.Number.Reading
import DotBuilder.Value

/-!
# Numbers survive being written

The text that an attribute list shows for an integer is read as that integer, and the one for a
finite double as a decimal that rounds to that double and to no other.  So different numbers of a
type have different texts, the two zeros included, and no text for a double could do with fewer
significant digits.

* `Numeral.RoundsTo` : rounding what was read;
* `roundsTo_shortest_iff` : the shortest decimal of a double rounds to that double alone;
* `int_attributeText_reads`, `float_attributeText_reads` : what is read from the texts of values;
* `Value.attributeText_round_trip` : all of it together.
-/

namespace DotBuilder

/-- A numeral rounds to a double. -/
def Numeral.RoundsTo (t : Numeral) (x : Binary64) : Prop :=
  Binary64.RoundsTo t.negative t.decimal.value x

variable {x y : Binary64}

theorem Binary64.roundsTo_shortest (hx : x.isFinite = true) :
    RoundsTo x.negative x.shortest.value x :=
  (roundsTo_iff hx (Decimal.value_nonneg _)).2 ⟨rfl, contains_shortest hx⟩

/-- The shortest decimal of a double tells which double it is of. -/
theorem Binary64.roundsTo_shortest_iff (hx : x.isFinite = true) :
    RoundsTo x.negative x.shortest.value y ↔ y = x := by
  constructor
  · intro hy
    exact hy.eq (roundsTo_shortest hx)
  · intro hy
    rw [hy]
    exact roundsTo_shortest hx

/-- The sign and the digits of an integer are the integer. -/
theorem Numeral.value_of_int (n : Int) : value ⟨decide (n < 0), ⟨n.natAbs, 0⟩⟩ = n := by
  unfold value Decimal.value
  by_cases hn : n < 0
  · simp [hn, abs_of_neg]
  · simp [hn, abs_of_nonneg (not_lt.1 hn)]

/-! ## Reading the texts of values -/

theorem int_attributeText_reads (n : Int) :
    ∃ t, readNumeral (Value.int n).attributeText = some t ∧ t.value = n :=
  ⟨_, readNumeral_intText n, Numeral.value_of_int n⟩

theorem float_attributeText_reads (hx : x.isFinite = true) :
    ∃ t, readNumeral (Value.float x).attributeText = some t ∧
      (∀ y, t.RoundsTo y ↔ y = x) ∧
      ∀ u : Numeral, u.RoundsTo x → t.decimal.significantDigits ≤ u.decimal.significantDigits := by
  obtain ⟨d, hread, hvalue⟩ := Binary64.readNumeral_text hx Value.floatLayout
  refine ⟨⟨x.negative, d⟩, hread, ?_, ?_⟩
  · intro y
    unfold Numeral.RoundsTo
    rw [hvalue]
    exact Binary64.roundsTo_shortest_iff hx
  · intro u hu
    rw [Decimal.significantDigits_congr hvalue]
    exact Binary64.significantDigits_shortest_le hx (hu.contains hx (Decimal.value_nonneg _))

/-- One text is read as one numeral. -/
theorem eq_of_reads {a b : String} {t u : Numeral} (ht : readNumeral a = some t)
    (hu : readNumeral b = some u) (h : a = b) : t = u := by
  rw [h, hu] at ht
  exact (Option.some.inj ht).symm

namespace Value

/-- **Numbers survive being written in an attribute list.**  The text of an integer is read as the
integer.  The text of a finite double is read as a decimal that rounds to the double, with all its
bits, and to no other one; and whatever rounds to the double has at least as many significant
digits.  So no two integers and no two finite doubles have the same text. -/
theorem attributeText_round_trip :
    (∀ n : Int, ∃ t, readNumeral (int n).attributeText = some t ∧ t.value = n) ∧
    (∀ x : Binary64, x.isFinite = true →
      ∃ t, readNumeral (float x).attributeText = some t ∧
        (∀ y, t.RoundsTo y ↔ y = x) ∧
        ∀ u : Numeral, u.RoundsTo x →
          t.decimal.significantDigits ≤ u.decimal.significantDigits) ∧
    (∀ m n : Int, (int m).attributeText = (int n).attributeText → m = n) ∧
    ∀ x y : Binary64, x.isFinite = true → y.isFinite = true →
      (float x).attributeText = (float y).attributeText → x = y := by
  refine ⟨int_attributeText_reads, fun x hx => float_attributeText_reads hx, ?_, ?_⟩
  · intro m n heq
    obtain ⟨t, ht, hm⟩ := int_attributeText_reads m
    obtain ⟨u, hu, hn⟩ := int_attributeText_reads n
    rw [eq_of_reads ht hu heq, hn] at hm
    exact_mod_cast hm.symm
  · intro x y hx hy heq
    obtain ⟨t, ht, hxt, -⟩ := float_attributeText_reads hx
    obtain ⟨u, hu, hyu, -⟩ := float_attributeText_reads hy
    rw [eq_of_reads ht hu heq] at hxt
    exact (hyu x).1 ((hxt x).2 rfl)

/-- The least double above zero has one digit, and the two zeros can be told apart. -/
theorem attributeText_round_trip_least :
    (float ⟨1⟩).attributeText = "5e-324" ∧
    (∃ t, readNumeral (float ⟨1⟩).attributeText = some t ∧ (∀ y, t.RoundsTo y ↔ y = ⟨1⟩) ∧
      ∀ u : Numeral, u.RoundsTo ⟨1⟩ →
        t.decimal.significantDigits ≤ u.decimal.significantDigits) ∧
    (float ⟨0⟩).attributeText ≠ (float ⟨0x8000000000000000⟩).attributeText := by
  refine ⟨by decide +kernel, attributeText_round_trip.2.1 ⟨1⟩ (by decide), ?_⟩
  intro heq
  have hzeros := attributeText_round_trip.2.2.2 ⟨0⟩ ⟨0x8000000000000000⟩ (by decide) (by decide) heq
  exact absurd hzeros (by decide)

end Value

end DotBuilder
