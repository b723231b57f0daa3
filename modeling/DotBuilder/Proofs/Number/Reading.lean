import DotBuilder.Number.Layout
import DotBuilder.Proofs.Number.Shortest

/-!
# Reading number texts

A reader for decimal notation: a sign, digits, digits behind a point, and a power of ten.  It knows
nothing of layouts, and takes a text as an exact decimal.

* `readNumeral` : the reader;
* `readDecimal_whole`, `readDecimal_point` : what it makes of digits without and with a point;
* `positional_eq`, `exponential_eq` : the two ways in which digits are laid out, as the reader meets
  them;
* `Layout.Positional`, `Layout.chars_cases` : which of the two a layout takes;
* `readNumeral_intText`, `readNumeral_text` : an integer is read as itself, and a finite double as
  its shortest decimal, whatever the layout.
-/

namespace DotBuilder

/-- A decimal with a sign, which zero has as well. -/
structure Numeral where
  /-- Whether the sign is a minus. -/
  negative : Bool
  /-- The magnitude. -/
  decimal : Decimal
  deriving DecidableEq, Repr

/-- The number that a numeral stands for. -/
def Numeral.value (t : Numeral) : ℚ := if t.negative then -t.decimal.value else t.decimal.value

/-! ## The reader -/

/-- Takes a sign off. -/
def readSign : List Char → Bool × List Char
  | '-' :: cs => (true, cs)
  | '+' :: cs => (false, cs)
  | cs => (false, cs)

/-- Takes the digits at the front off. -/
def readDigits (cs : List Char) : List Char × List Char :=
  (cs.takeWhile Char.isDigit, cs.dropWhile Char.isDigit)

/-- Takes a point and the digits behind it off. -/
def readFraction : List Char → List Char × List Char
  | '.' :: cs => readDigits cs
  | cs => ([], cs)

/-- Reads a power of ten up to the end of the text.  No text is the power zero. -/
def readPower : List Char → Option Int
  | [] => some 0
  | 'e' :: cs =>
    let sign := readSign cs
    let digits := readDigits sign.2
    if digits.1 ≠ [] ∧ digits.2 = [] then
      let n : Int := Nat.ofDigitChars 10 digits.1 0
      some (if sign.1 then -n else n)
    else none
  | _ => none

/-- Reads a decimal without a sign. -/
def readDecimal (cs : List Char) : Option Decimal :=
  let whole := readDigits cs
  let behind := readFraction whole.2
  let digits := whole.1 ++ behind.1
  if digits = [] then none
  else (readPower behind.2).map fun e => ⟨Nat.ofDigitChars 10 digits 0, e - behind.1.length⟩

/-- Reads a text in decimal notation. -/
def readNumeral (s : String) : Option Numeral :=
  let sign := readSign s.toList
  (readDecimal sign.2).map (Numeral.mk sign.1)

/-! ## Digits -/

/-- All characters are digits. -/
def AllDigits (cs : List Char) : Prop := ∀ c ∈ cs, c.isDigit = true

variable {cs ds whole behind tail : List Char} {c : Char} {n : Nat} {e : Int}

@[simp] theorem allDigits_nil : AllDigits [] := by simp [AllDigits]

@[simp] theorem allDigits_cons : AllDigits (c :: cs) ↔ c.isDigit = true ∧ AllDigits cs := by
  simp [AllDigits]

@[simp] theorem allDigits_append : AllDigits (cs ++ ds) ↔ AllDigits cs ∧ AllDigits ds := by
  simp [AllDigits, or_imp, forall_and]

@[simp] theorem allDigits_zeros (n : Nat) : AllDigits (List.replicate n '0') := by
  simp [AllDigits]

theorem AllDigits.take (h : AllDigits cs) (n : Nat) : AllDigits (cs.take n) :=
  fun c hc => h c (List.mem_of_mem_take hc)

theorem AllDigits.drop (h : AllDigits cs) (n : Nat) : AllDigits (cs.drop n) :=
  fun c hc => h c (List.mem_of_mem_drop hc)

@[simp] theorem allDigits_natChars (n : Nat) : AllDigits (natChars n) :=
  fun _ hc => Nat.isDigit_of_mem_toDigits (by decide) (by decide) hc

@[simp] theorem natChars_ne_nil (n : Nat) : natChars n ≠ [] := Nat.toDigits_ne_nil

@[simp] theorem ofDigitChars_natChars (n : Nat) : Nat.ofDigitChars 10 (natChars n) 0 = n :=
  Nat.ofDigitChars_toDigits (by decide) (by decide)

/-- Zeros in front do not count. -/
theorem ofDigitChars_zeros_append (n : Nat) (cs : List Char) :
    Nat.ofDigitChars 10 (List.replicate n '0' ++ cs) 0 = Nat.ofDigitChars 10 cs 0 := by
  simp [Nat.ofDigitChars_append, Nat.ofDigitChars_replicate_zero]

/-- Zeros at the end make a number larger. -/
theorem ofDigitChars_append_zeros (n : Nat) (cs : List Char) :
    Nat.ofDigitChars 10 (cs ++ List.replicate n '0') 0 = 10 ^ n * Nat.ofDigitChars 10 cs 0 := by
  simp [Nat.ofDigitChars_append, Nat.ofDigitChars_replicate_zero]

/-! ## The parts of a text -/

theorem readSign_of_isDigit (h : c.isDigit = true) : readSign (c :: cs) = (false, c :: cs) := by
  unfold readSign
  split
  · rename_i heq
    simp only [List.cons.injEq] at heq
    rw [heq.1] at h
    exact absurd h (by decide)
  · rename_i heq
    simp only [List.cons.injEq] at heq
    rw [heq.1] at h
    exact absurd h (by decide)
  · rfl

/-- A sign is not taken for one if it is none. -/
theorem readSign_of_allDigits (h : AllDigits ds) (hne : ds ≠ []) (cs : List Char) :
    readSign (ds ++ cs) = (false, ds ++ cs) := by
  cases ds with
  | nil => exact absurd rfl hne
  | cons c ds => exact readSign_of_isDigit (allDigits_cons.1 h).1

/-- Digits are taken off up to the first character that is none. -/
theorem readDigits_append (hd : AllDigits ds) (ht : readDigits tail = ([], tail)) :
    readDigits (ds ++ tail) = (ds, tail) := by
  simp only [readDigits, Prod.mk.injEq] at ht ⊢
  rw [List.takeWhile_append_of_pos hd, List.dropWhile_append_of_pos hd, ht.1, ht.2]
  simp

theorem readDigits_nil : readDigits [] = ([], []) := rfl

theorem readDigits_of_allDigits (hd : AllDigits ds) : readDigits ds = (ds, []) := by
  simpa using readDigits_append hd readDigits_nil

/-- A text that has no point. -/
theorem readDecimal_whole (hw : AllDigits whole) (hne : whole ≠ [])
    (hd : readDigits tail = ([], tail)) (hf : readFraction tail = ([], tail)) :
    readDecimal (whole ++ tail) =
      (readPower tail).map fun e => ⟨Nat.ofDigitChars 10 whole 0, e⟩ := by
  simp [readDecimal, readDigits_append hw hd, hf, hne]

/-- A text that has one. -/
theorem readDecimal_point (hw : AllDigits whole) (hb : AllDigits behind) (hne : whole ≠ [])
    (hd : readDigits tail = ([], tail)) :
    readDecimal (whole ++ '.' :: (behind ++ tail)) =
      (readPower tail).map fun e =>
        ⟨Nat.ofDigitChars 10 (whole ++ behind) 0, e - behind.length⟩ := by
  have hpoint : readDigits ('.' :: (behind ++ tail)) = ([], '.' :: (behind ++ tail)) := rfl
  simp [readDecimal, readDigits_append hw hpoint, readFraction, readDigits_append hb hd, hne]

/-- A written power of ten is read as it is, however wide it is. -/
theorem readPower_powerOfTen (width : Nat) (e : Int) : readPower (powerOfTen width e) = some e := by
  have hdigits (n : Nat) : readDigits (List.replicate n '0' ++ natChars e.natAbs) =
      (List.replicate n '0' ++ natChars e.natAbs, []) :=
    readDigits_of_allDigits (by simp)
  unfold powerOfTen
  by_cases he : e < 0
  · simp [he, readPower, readSign, hdigits, ofDigitChars_zeros_append, abs_of_neg he]
  · simp [he, readPower, readSign, hdigits, ofDigitChars_zeros_append, abs_of_nonneg (not_lt.1 he)]

/-! ## The two layouts -/

/-- Digits written positionally are digits, a point and digits, which stand for the same number. -/
theorem positional_eq (hd : AllDigits ds) (hne : ds ≠ []) (e : Int) :
    ∃ whole behind, AllDigits whole ∧ AllDigits behind ∧ whole ≠ [] ∧
      positional ds e = whole ++ '.' :: behind ∧
      Decimal.value ⟨Nat.ofDigitChars 10 (whole ++ behind) 0, -behind.length⟩ =
        Decimal.value ⟨Nat.ofDigitChars 10 ds 0, e⟩ := by
  have hlength : 0 < ds.length := List.length_pos_iff.2 hne
  unfold positional
  dsimp only
  split
  next hbehind =>
    refine ⟨ds ++ List.replicate e.toNat '0', ['0'], ?_, ?_, ?_, ?_, ?_⟩
    · simp [hd]
    · simp
    · simp [hne]
    · simp
    · have hzeros : ds ++ List.replicate e.toNat '0' ++ ['0'] =
          ds ++ List.replicate (e.toNat + 1) '0' := by
        simp [List.replicate_succ']
      have hexponent : -1 + ((e.toNat + 1 : ℕ) : ℤ) = e := by omega
      rw [hzeros, ofDigitChars_append_zeros]
      show Decimal.value ⟨_, -1⟩ = _
      rw [Decimal.value_mul_pow, hexponent]
  next hbehind =>
    split
    next hlt =>
      refine ⟨ds.take (ds.length - (-e).toNat), ds.drop (ds.length - (-e).toNat), hd.take _,
        hd.drop _, ?_, rfl, ?_⟩
      · simp only [ne_eq, List.take_eq_nil_iff, hne, or_false]
        omega
      · have hexponent : -((ds.drop (ds.length - (-e).toNat)).length : ℤ) = e := by
          rw [List.length_drop]
          omega
        rw [List.take_append_drop, hexponent]
    next hge =>
      refine ⟨['0'], List.replicate ((-e).toNat - ds.length) '0' ++ ds, ?_, ?_, ?_, rfl, ?_⟩
      · simp
      · simp [hd]
      · simp
      · have hexponent : -((List.replicate ((-e).toNat - ds.length) '0' ++ ds).length : ℤ) = e := by
          rw [List.length_append, List.length_replicate]
          omega
        rw [hexponent, ← List.append_assoc]
        show Decimal.value ⟨Nat.ofDigitChars 10 (List.replicate (_ + 1) '0' ++ ds) 0, e⟩ = _
        rw [ofDigitChars_zeros_append]

/-- Digits written with a power of ten are a digit, a point and the others if there are any, and the
power. -/
theorem exponential_eq (width : Nat) (c : Char) (ds : List Char) (e : Int) :
    exponential width (c :: ds) e =
      if ds = [] then [c] ++ powerOfTen width e
      else [c] ++ '.' :: (ds ++ powerOfTen width e) := by
  cases ds <;> simp [exponential]

theorem readDecimal_exponential (width : Nat) (hd : AllDigits (c :: ds)) (e : Int) :
    readDecimal (exponential width (c :: ds) e) =
      some ⟨Nat.ofDigitChars 10 (c :: ds) 0, e - ds.length⟩ := by
  have hc : AllDigits [c] := by simp [(allDigits_cons.1 hd).1]
  rw [exponential_eq]
  split
  next hnil =>
    rw [readDecimal_whole hc (by simp) rfl rfl, readPower_powerOfTen]
    simp [hnil]
  next =>
    rw [readDecimal_point hc (allDigits_cons.1 hd).2 (by simp) rfl, readPower_powerOfTen]
    simp

namespace Layout

/-- The decimal's leading digit is in the range that is written positionally. -/
def Positional (l : Layout) (d : Decimal) : Prop :=
  l.lowest ≤ d.exponent + (natChars d.coefficient).length - 1 ∧
    d.exponent + (natChars d.coefficient).length - 1 < l.bound

/-- The text of a decimal is digits with a point that stand for it, or its own digits with a power
of ten. -/
theorem chars_cases (l : Layout) (d : Decimal) :
    (l.Positional d ∧ ∃ whole behind, AllDigits whole ∧ AllDigits behind ∧ whole ≠ [] ∧
      l.chars d = whole ++ '.' :: behind ∧
      Decimal.value ⟨Nat.ofDigitChars 10 (whole ++ behind) 0, -behind.length⟩ = d.value) ∨
    (¬ l.Positional d ∧ ∃ c ds, AllDigits (c :: ds) ∧
      Nat.ofDigitChars 10 (c :: ds) 0 = d.coefficient ∧
      l.chars d = exponential l.exponentWidth (c :: ds) (d.exponent + ds.length)) := by
  have hd := allDigits_natChars d.coefficient
  have hvalue := ofDigitChars_natChars d.coefficient
  by_cases h : l.Positional d
  · left
    have hchars : l.chars d = positional (natChars d.coefficient) d.exponent := if_pos h
    obtain ⟨whole, behind, hw, hb, hne, heq, hsame⟩ :=
      positional_eq hd (natChars_ne_nil d.coefficient) d.exponent
    rw [hvalue] at hsame
    exact ⟨h, whole, behind, hw, hb, hne, hchars.trans heq, hsame⟩
  · right
    have hchars : l.chars d = exponential l.exponentWidth (natChars d.coefficient)
        (d.exponent + (natChars d.coefficient).length - 1) := if_neg h
    obtain ⟨c, ds, hcons⟩ := List.exists_cons_of_ne_nil (natChars_ne_nil d.coefficient)
    have hexponent : d.exponent + (c :: ds).length - 1 = d.exponent + ds.length := by
      simp only [List.length_cons]
      omega
    rw [hcons] at hd hvalue
    rw [hcons, hexponent] at hchars
    exact ⟨h, c, ds, hd, hvalue, hchars⟩

/-- It starts with a digit. -/
theorem exists_chars_eq_cons (l : Layout) (d : Decimal) :
    ∃ c cs, l.chars d = c :: cs ∧ c.isDigit = true := by
  obtain ⟨-, whole, behind, hw, -, hne, heq, -⟩ | ⟨-, c, ds, hd, -, heq⟩ := l.chars_cases d
  · obtain ⟨c, cs, hcons⟩ := List.exists_cons_of_ne_nil hne
    rw [hcons] at hw heq
    exact ⟨c, _, heq, (allDigits_cons.1 hw).1⟩
  · exact ⟨c, _, heq, (allDigits_cons.1 hd).1⟩

end Layout

/-! ## Texts of numbers -/

/-- A decimal is read as a decimal of the same value. -/
theorem readDecimal_chars (l : Layout) (d : Decimal) :
    ∃ d', readDecimal (l.chars d) = some d' ∧ d'.value = d.value := by
  obtain ⟨-, whole, behind, hw, hb, hne, heq, hvalue⟩ | ⟨-, c, ds, hd, hvalue, heq⟩ :=
    l.chars_cases d
  · refine ⟨_, ?_, hvalue⟩
    have hread := readDecimal_point hw hb hne readDigits_nil
    rw [List.append_nil] at hread
    rw [heq, hread]
    simp [readPower]
  · refine ⟨d, ?_, rfl⟩
    rw [heq, readDecimal_exponential _ hd, hvalue]
    simp

theorem readSign_chars (l : Layout) (d : Decimal) :
    readSign (l.chars d) = (false, l.chars d) := by
  obtain ⟨c, cs, hcons, hc⟩ := l.exists_chars_eq_cons d
  rw [hcons]
  exact readSign_of_isDigit hc

/-- **An integer is read as itself.** -/
theorem readNumeral_intText (n : Int) :
    readNumeral (intText n) = some ⟨decide (n < 0), ⟨n.natAbs, 0⟩⟩ := by
  have hread : readDecimal (natChars n.natAbs) = some ⟨n.natAbs, 0⟩ := by
    have := readDecimal_whole (allDigits_natChars n.natAbs) (natChars_ne_nil _) readDigits_nil rfl
    simpa [readPower] using this
  have hsign : readSign (natChars n.natAbs) = (false, natChars n.natAbs) := by
    simpa using readSign_of_allDigits (allDigits_natChars n.natAbs) (natChars_ne_nil _) []
  unfold readNumeral intText
  rw [String.toList_ofList]
  unfold intChars
  split
  next h => simp [readSign, hread, h]
  next h => simp [hsign, hread, h]

namespace Binary64

variable {x : Binary64}

theorem magnitudeChars_of_isFinite (hx : x.isFinite = true) (l : Layout) :
    x.magnitudeChars l = l.chars x.shortest := by
  have hinfinite : x.isInfinite = false := by
    simp only [isFinite, decide_eq_true_eq] at hx
    simp [isInfinite, hx]
  simp [magnitudeChars, hinfinite]

theorem chars_of_isFinite (hx : x.isFinite = true) (l : Layout) :
    x.chars l = (if x.negative then ['-'] else []) ++ l.chars x.shortest := by
  unfold chars
  rw [magnitudeChars_of_isFinite hx, isNaN_of_isFinite hx]
  cases x.negative <;> simp

/-- **A finite double is read as its shortest decimal**, with its sign. -/
theorem readNumeral_text (hx : x.isFinite = true) (l : Layout) :
    ∃ d, readNumeral (x.text l) = some ⟨x.negative, d⟩ ∧ d.value = x.shortest.value := by
  obtain ⟨d, hread, hvalue⟩ := readDecimal_chars l x.shortest
  refine ⟨d, ?_, hvalue⟩
  unfold readNumeral text
  rw [String.toList_ofList, chars_of_isFinite hx]
  cases x.negative with
  | true => simp [readSign, hread]
  | false => simp [readSign_chars, hread]

end Binary64

end DotBuilder
