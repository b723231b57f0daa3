import DotBuilder.OrdMap.Lemmas
import DotBuilder.Proofs.Number.Positional
import DotBuilder.Proofs.Text.AttributeLists

/-!
# Numbers as words of the DOT language

An attribute list writes the value of a name that does without quotes as it is.  A reader takes it
for one word of the DOT language only if it is a name or a numeral, and numerals have no power of
ten.  So truth values and integers can always be read back, and doubles as long as they are written
positionally.

* `IsWord` : the words that need no quotes, names and numerals;
* `isWord_intChars`, `isWord_chars_iff` : the texts of integers, and those of decimals by layout;
* `Value.isWord_attributeText_iff` : the values whose text is one word;
* `AttrSet.number_is_word_iff` : the same of the pairs of an attribute list.
-/

namespace DotBuilder

namespace Text

/-- A numeral without a sign: digits behind a point, or digits that a point and further digits may
follow. -/
inductive IsNumeral : List Char → Prop
  | fraction {behind : List Char} (hb : AllDigits behind) (hne : behind ≠ []) :
      IsNumeral ('.' :: behind)
  | whole {whole : List Char} (hw : AllDigits whole) (hne : whole ≠ []) : IsNumeral whole
  | point {whole behind : List Char} (hw : AllDigits whole) (hne : whole ≠ [])
      (hb : AllDigits behind) : IsNumeral (whole ++ '.' :: behind)

/-- A word that is one ID without quotes: a letter or an underscore, followed by letters, digits and
underscores, or a numeral, with a minus sign or without. -/
inductive IsWord : List Char → Prop
  | name {c : Char} {cs : List Char} (hc : c.isAlpha = true ∨ c = '_')
      (hcs : ∀ d ∈ cs, d.isAlphanum = true ∨ d = '_') : IsWord (c :: cs)
  | numeral {cs : List Char} (h : IsNumeral cs) : IsWord cs
  | negative {cs : List Char} (h : IsNumeral cs) : IsWord ('-' :: cs)

variable {c : Char} {cs ds : List Char}

/-! ## Words without letters -/

theorem not_mem_of_allDigits (h : AllDigits cs) : 'e' ∉ cs := by
  intro he
  have := h 'e' he
  revert this
  decide

/-- Numerals have no letters, and so no power of ten. -/
theorem IsNumeral.not_mem (h : IsNumeral cs) : 'e' ∉ cs := by
  cases h with
  | fraction hb => simp [not_mem_of_allDigits hb]
  | whole hw => exact not_mem_of_allDigits hw
  | point hw _ hb => simp [not_mem_of_allDigits hw, not_mem_of_allDigits hb]

/-- A word that starts neither with a letter nor with an underscore is a numeral. -/
theorem IsWord.not_mem (h : IsWord (c :: cs)) (hc : c.isAlpha = false) (hne : c ≠ '_') :
    'e' ∉ c :: cs := by
  cases h with
  | name hname => simp [hc, hne] at hname
  | numeral h => exact h.not_mem
  | negative h => simp [h.not_mem]

theorem isAlpha_of_isDigit (h : c.isDigit = true) : c.isAlpha = false ∧ c ≠ '_' := by
  constructor
  · delta Char.isDigit at h
    delta Char.isAlpha Char.isUpper Char.isLower
    simp only [Bool.and_eq_true, Bool.or_eq_false_iff, Bool.and_eq_false_iff, decide_eq_true_eq,
      decide_eq_false_iff_not, ge_iff_le, UInt32.le_iff_toNat_le] at h ⊢
    have hnine : '9'.val.toNat = 57 := rfl
    have hupper : 'A'.val.toNat = 65 := rfl
    have hlower : 'a'.val.toNat = 97 := rfl
    omega
  · rintro rfl
    revert h
    decide

/-! ## Texts of numbers -/

theorem isWord_intChars (n : Int) : IsWord (intChars n) := by
  have h : IsNumeral (natChars n.natAbs) := .whole (allDigits_natChars _) (natChars_ne_nil _)
  unfold intChars
  split
  · exact .negative h
  · exact .numeral h

/-- The text of a decimal is a numeral if it is laid out positionally; else it has the letter of the
power of ten. -/
theorem isNumeral_or_mem (l : Layout) (d : Decimal) :
    (l.Positional d ∧ IsNumeral (l.chars d)) ∨ (¬ l.Positional d ∧ 'e' ∈ l.chars d) := by
  obtain ⟨h, whole, behind, hw, hb, hne, heq, -⟩ | ⟨h, c, ds, -, -, heq⟩ := l.chars_cases d
  · rw [heq]
    exact .inl ⟨h, .point hw hne hb⟩
  · rw [heq]
    exact .inr ⟨h, by simp [exponential, powerOfTen]⟩

theorem isWord_chars_iff (l : Layout) (d : Decimal) (sign : Bool) :
    IsWord ((if sign then ['-'] else []) ++ l.chars d) ↔ l.Positional d := by
  obtain ⟨h, hword⟩ | ⟨h, he⟩ := isNumeral_or_mem l d
  · simp only [h, iff_true]
    cases sign with
    | true => exact .negative hword
    | false => exact .numeral hword
  · simp only [h, iff_false]
    intro hword
    cases sign with
    | true => exact hword.not_mem (by decide) (by decide) (List.mem_cons_of_mem _ he)
    | false =>
      obtain ⟨c, cs, hcons, hc⟩ := l.exists_chars_eq_cons d
      obtain ⟨halpha, hne⟩ := isAlpha_of_isDigit hc
      rw [hcons] at he
      simp only [Bool.false_eq_true, if_false, List.nil_append, hcons] at hword
      exact hword.not_mem halpha hne he

end Text

/-! ## Values -/

namespace Value

/-- A truth value, an integer or a finite double. -/
def isNumber : Value → Bool
  | bool _ => true
  | int _ => true
  | float x => x.isFinite
  | _ => false

variable {v : Value}

/-- **The texts of numbers are words**, but for doubles of an extreme size. -/
theorem isWord_attributeText_iff (hv : v.isNumber = true) :
    Text.IsWord v.attributeText.toList ↔ ∀ x, v = float x → x.Moderate := by
  cases v with
  | null => cases hv
  | text s => cases hv
  | bool b =>
    have hword : Text.IsWord (bool b).attributeText.toList := by
      cases b with
      | true =>
        show Text.IsWord ['t', 'r', 'u', 'e']
        exact .name (by decide) (by simp)
      | false =>
        show Text.IsWord ['f', 'a', 'l', 's', 'e']
        exact .name (by decide) (by simp)
    simp [hword]
  | int n =>
    have hword : Text.IsWord (int n).attributeText.toList := by
      show Text.IsWord (intText n).toList
      rw [intText, String.toList_ofList]
      exact Text.isWord_intChars n
    simp [hword]
  | float x =>
    have hx : x.isFinite = true := hv
    have hchars : (float x).attributeText.toList =
        (if x.negative then ['-'] else []) ++ floatLayout.chars x.shortest := by
      show (x.text floatLayout).toList = _
      rw [Binary64.text, String.toList_ofList, Binary64.chars_of_isFinite hx]
    rw [hchars, Text.isWord_chars_iff, Binary64.positional_iff hx]
    simp

end Value

/-! ## Attribute lists -/

namespace AttrSet

/-- **Numbers behind names that do without quotes.**  The attribute list shows such a number behind
its name, between the other pairs, and its text is one word of the DOT language unless it is a
double that is below a ten thousandth, zero aside, or from ten to the sixteenth up. -/
theorem number_is_word_iff (s : AttrSet) (extra : Attrs) {name : String} {v : Value}
    (hname : isQuoted name = false) (hget : (s.entries.insertAll extra).get? name = some v)
    (hv : v.isNumber = true) :
    ∃ before after, s.shown extra = before ++ (name, v) :: after ∧
      s.textWith extra =
        " [" ++ String.intercalate ", " (before.map (pairText s.html) ++
          (name ++ "=" ++ v.attributeText) :: after.map (pairText s.html)) ++ "]" ∧
      (Text.IsWord v.attributeText.toList ↔ ∀ x, v = .float x → x.Moderate) := by
  have hmem : (name, v) ∈ s.shown extra := by
    have hnull : v.isNull = false := by
      cases v <;> first | rfl | cases hv
    simp [shown, hnull, (OrdMap.mem_entries_iff _ _ _).2 hget]
  obtain ⟨before, after, hshown⟩ := List.append_of_mem hmem
  have htext : pairText s.html (name, v) = name ++ "=" ++ v.attributeText := by
    simp [pairText, valueText, hname]
  refine ⟨before, after, hshown, ?_, Value.isWord_attributeText_iff hv⟩
  rw [textWith_of_shown_ne_nil (List.ne_nil_of_mem hmem), hshown]
  simp [htext]

/-- The largest double that is below ten to the sixteenth is written positionally, so it is a
word. -/
theorem number_is_word_iff_weight :
    let s : AttrSet := ⟨.edge, false, false, .ofList [("weight", .float ⟨0x4341C37937E07FFF⟩)]⟩
    s.text = " [weight=9999999999999998.0]" ∧
    ∃ before after, s.shown .empty = before ++ ("weight", .float ⟨0x4341C37937E07FFF⟩) :: after ∧
      s.text = " [" ++ String.intercalate ", " (before.map (pairText false) ++
        "weight=9999999999999998.0" :: after.map (pairText false)) ++ "]" ∧
      Text.IsWord "9999999999999998.0".toList := by
  have hmoderate : Binary64.Moderate ⟨0x4341C37937E07FFF⟩ := by
    rw [← Binary64.positional_iff (by decide)]
    unfold Layout.Positional
    decide +kernel
  have hvalue : (Value.float ⟨0x4341C37937E07FFF⟩).attributeText = "9999999999999998.0" := by
    decide +kernel
  have hname : isQuoted "weight" = false := by decide +kernel
  have hget : (OrdMap.insertAll (.ofList [("weight", .float ⟨0x4341C37937E07FFF⟩)]) .empty).get?
      "weight" = some (Value.float ⟨0x4341C37937E07FFF⟩) := by decide
  intro s
  obtain ⟨before, after, hshown, htext, hword⟩ :=
    number_is_word_iff s .empty hname hget (by decide)
  rw [hvalue] at htext hword
  refine ⟨by decide +kernel, before, after, hshown, htext, hword.2 ?_⟩
  intro x heq
  cases heq
  exact hmoderate

/-- Ten to the sixteenth itself is written with a power of ten and without quotes. -/
theorem number_is_no_word_weight :
    let s : AttrSet := ⟨.edge, false, false, .ofList [("weight", .float ⟨0x4341C37937E08000⟩)]⟩
    isQuoted "weight" = false ∧ Binary64.isFinite ⟨0x4341C37937E08000⟩ = true ∧
      s.text = " [weight=1e+16]" ∧ ¬ Text.IsWord "1e+16".toList := by
  refine ⟨by decide +kernel, by decide, by decide +kernel, ?_⟩
  intro hword
  have hne : 'e' ∉ "1e+16".toList := hword.not_mem (by decide) (by decide)
  exact absurd (by decide) hne

end AttrSet

end DotBuilder
