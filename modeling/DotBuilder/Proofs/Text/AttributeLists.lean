import DotBuilder.Attribute.Set
import DotBuilder.Proofs.Text.Delimited

/-!
# Attribute lists are unambiguous

An attribute list writes names and values as they are, and puts values between quotes or not as
their names demand.  A reader who knows the vocabulary can still take it apart: a name ends at the
first `=`, and the name says whether its value ends at a quote or at a comma.

* `textWith_of_shown_nil`, `textWith_of_shown_ne_nil` : the two forms of an attribute list;
* `pairs` : what the list of a set shows;
* `Legible` : a pair whose name and value end where a reader takes them to end;
* `delimited_pairChars` : a legible pair with the separator behind it tells where it ends;
* `text_eq_iff_pairs_eq` : sets of legible pairs have the same list iff they show the same pairs.
-/

namespace DotBuilder

theorem Value.isNull_iff {v : Value} : v.isNull = true ↔ v = .null := by
  cases v <;> simp [isNull]

namespace AttrSet

variable {s t : AttrSet} {extra : Attrs}

/-! ## The forms of a list -/

theorem textWith_of_shown_nil (h : s.shown extra = []) : s.textWith extra = "" := by
  rw [textWith, h]

theorem textWith_of_shown_ne_nil (h : s.shown extra ≠ []) :
    s.textWith extra =
      " [" ++ String.intercalate ", " ((s.shown extra).map (pairText s.html)) ++ "]" := by
  rw [textWith]
  split
  · contradiction
  · rename_i heq
    rw [heq]

/-- What stands between the brackets, with one more separator behind it. -/
theorem toList_intercalate_pairs {es : List (String × Value)} (hes : es ≠ []) (html : Bool) :
    (String.intercalate ", " (es.map (pairText html))).toList ++ [',', ' '] =
      es.flatMap fun e => (pairText html e).toList ++ [',', ' '] := by
  have hne : (es.map (pairText html)).map String.toList ≠ [] := by simpa using hes
  have h := Text.intercalate_append ", ".toList hne
  simpa [String.toList_intercalate, List.flatMap_map] using h

/-- A list that shows something has something between its brackets. -/
theorem intercalate_pairs_ne_empty {es : List (String × Value)} (hes : es ≠ []) (html : Bool) :
    String.intercalate ", " (es.map (pairText html)) ≠ "" := by
  intro h
  have hlist := toList_intercalate_pairs hes html
  obtain ⟨e, rest, rfl⟩ := List.exists_cons_of_ne_nil hes
  -- The first pair alone is longer than nothing, because of its `=`.
  have hlength := congrArg List.length hlist
  rw [h] at hlength
  simp [pairText] at hlength
  omega

theorem textWith_eq_empty_iff : s.textWith extra = "" ↔ s.shown extra = [] := by
  refine ⟨fun h => ?_, textWith_of_shown_nil⟩
  by_cases hne : s.shown extra = []
  · exact hne
  · rw [textWith_of_shown_ne_nil hne] at h
    simp at h

/-- Brackets never stand around nothing. -/
theorem textWith_ne_brackets (s : AttrSet) (extra : Attrs) : s.textWith extra ≠ " []" := by
  by_cases hne : s.shown extra = []
  · rw [textWith_of_shown_nil hne]
    decide
  · intro h
    rw [textWith_of_shown_ne_nil hne] at h
    have hchars := congrArg String.toList h
    simp only [String.toList_append] at hchars
    have hinner := List.append_cancel_left (List.append_cancel_right hchars :
      " [".toList ++ _ = " [".toList ++ [])
    exact intercalate_pairs_ne_empty hne s.html (String.toList_inj.1 hinner)

/-! ## What a list shows -/

/-- The names of a set that are not unset, in order, with the texts of their values. -/
def pairs (s : AttrSet) : List (String × String) :=
  (s.entries.entries.filter fun e => !e.2.isNull).map fun e => (e.1, e.2.attributeText)

theorem shown_empty (s : AttrSet) :
    s.shown .empty = s.entries.entries.filter fun e => !e.2.isNull := rfl

theorem pairs_eq_nil_iff : s.pairs = [] ↔ s.shown .empty = [] := by
  rw [shown_empty, pairs, List.map_eq_nil_iff]

theorem shown_eq_nil_iff : s.shown .empty = [] ↔ ∀ e ∈ s.entries.entries, e.2 = .null := by
  simp [shown_empty, List.filter_eq_nil_iff, Value.isNull_iff]

/-! ## Pairs that can be told apart -/

/-- The character that ends a value of an attribute. -/
def valueEnd (name : String) : Char := if isQuoted name then '"' else ','

/-- A name and the text of its value that end where they are taken to end: the name has no `=`
inside, and the text has no `"` inside if it is written between quotes, else no `,`. -/
def Legible (e : String × String) : Prop :=
  '=' ∉ e.1.toList ∧ valueEnd e.1 ∉ e.2.toList

instance (e : String × String) : Decidable (Legible e) := inferInstanceAs (Decidable (_ ∧ _))

/-- The text of a value, between quotes if its name demands them, with the separator behind it. -/
def valueChars (name value : String) : List Char :=
  (if isQuoted name then Text.inQuotes value else value).toList ++ [',', ' ']

/-- A name and the text of its value, with the separator behind them. -/
def pairChars (e : String × String) : List Char := (e.1.toList ++ ['=']) ++ valueChars e.1 e.2

theorem delimited_valueChars (name : String) :
    Text.Delimited (fun value : String => valueEnd name ∉ value.toList) (valueChars name) := by
  cases h : isQuoted name with
  | true =>
    have hchars : valueChars name = fun v => (Text.inQuotes v).toList ++ [',', ' '] := by
      funext v
      simp [valueChars, h]
    rw [hchars, valueEnd, if_pos h]
    exact Text.delimited_inQuotes.before [',', ' ']
  | false =>
    -- The comma of the separator ends the value.
    have hchars : valueChars name = fun v => v.toList ++ [',', ' '] := by
      funext v
      simp [valueChars, h]
    rw [hchars, valueEnd, if_neg (by simp [h])]
    exact Text.delimited_terminated ',' [' ']

/-- **A legible pair tells where it ends.** -/
theorem delimited_pairChars : Text.Delimited Legible pairChars :=
  (Text.delimited_terminated '=' []).pair fun name _ => delimited_valueChars name

theorem pairText_eq_pairChars (e : String × Value) :
    (pairText false e).toList ++ [',', ' '] = pairChars (e.1, e.2.attributeText) := by
  simp [pairText, pairChars, valueText, valueChars]

/-- The list of a set whose label is no HTML-like text is known from what it shows. -/
theorem text_of_pairs_ne_nil (hs : s.html = false) (hne : s.pairs ≠ []) :
    ∃ inner : List Char, s.text.toList = [' ', '['] ++ inner ++ [']'] ∧
      inner ++ [',', ' '] = s.pairs.flatMap pairChars := by
  have hshown : s.shown .empty ≠ [] := fun h => hne (pairs_eq_nil_iff.2 h)
  refine ⟨_, ?_, toList_intercalate_pairs hshown false |>.trans ?_⟩
  · rw [text, textWith_of_shown_ne_nil hshown, hs]
    simp
  · rw [pairs, List.flatMap_map, shown_empty]
    simp only [pairText_eq_pairChars]

theorem pairs_of_text_eq (hs : s.html = false) (ht : t.html = false)
    (hsl : ∀ e ∈ s.pairs, Legible e) (htl : ∀ e ∈ t.pairs, Legible e) (h : s.text = t.text) :
    s.pairs = t.pairs := by
  have hempty : s.pairs = [] ↔ t.pairs = [] := by
    rw [pairs_eq_nil_iff, pairs_eq_nil_iff, ← textWith_eq_empty_iff, ← textWith_eq_empty_iff]
    exact iff_of_eq (congrArg (· = "") h)
  by_cases hne : s.pairs = []
  · rw [hne, hempty.1 hne]
  · obtain ⟨inner, htext, hinner⟩ := text_of_pairs_ne_nil hs hne
    obtain ⟨inner', htext', hinner'⟩ := text_of_pairs_ne_nil ht fun h => hne (hempty.2 h)
    have hsame : inner = inner' := by
      rw [h, htext'] at htext
      exact (List.append_cancel_left (List.append_cancel_right htext)).symm
    have hrows : s.pairs.flatMap pairChars ++ [] = t.pairs.flatMap pairChars ++ [] := by
      rw [← hinner, ← hinner', hsame]
    have hnot : ∀ e, Legible e → ¬ pairChars e <+: [] := by
      intro e _
      simp [pairChars]
    exact (delimited_pairChars.flatMap_inj hsl htl hnot hnot hrows).1

theorem text_of_pairs_eq (hs : s.html = false) (ht : t.html = false) (h : s.pairs = t.pairs) :
    s.text = t.text := by
  by_cases hne : s.pairs = []
  · rw [text, text, textWith_of_shown_nil (pairs_eq_nil_iff.1 hne),
      textWith_of_shown_nil (pairs_eq_nil_iff.1 (h ▸ hne))]
  · obtain ⟨inner, htext, hinner⟩ := text_of_pairs_ne_nil hs hne
    obtain ⟨inner', htext', hinner'⟩ := text_of_pairs_ne_nil ht (h ▸ hne)
    have hsame : inner = inner' := by
      rw [← h, ← hinner] at hinner'
      exact (List.append_cancel_right hinner').symm
    rw [← String.toList_inj, htext, htext', hsame]

/-- **Attribute lists are unambiguous.**  Take two sets whose labels are no HTML-like texts, for
whatever contexts.  If the names that are not unset have no `=` inside, and their values no `"`
inside where they are quoted and no `,` where they are not, then the lists of the two are the same
iff they show the same names with the same texts in the same order.  The list of any set is empty
iff all its attributes are unset, and never a pair of brackets around nothing. -/
theorem text_eq_iff_pairs_eq :
    (∀ s t : AttrSet, s.html = false → t.html = false → (∀ e ∈ s.pairs, Legible e) →
      (∀ e ∈ t.pairs, Legible e) → (s.text = t.text ↔ s.pairs = t.pairs)) ∧
    ∀ s : AttrSet, (s.text = "" ↔ ∀ e ∈ s.entries.entries, e.2 = .null) ∧ s.text ≠ " []" := by
  refine ⟨fun s t hs ht hsl htl => ⟨?_, ?_⟩, fun s => ⟨?_, ?_⟩⟩
  · exact pairs_of_text_eq hs ht hsl htl
  · exact text_of_pairs_eq hs ht
  · exact textWith_eq_empty_iff.trans shown_eq_nil_iff
  · exact textWith_ne_brackets s .empty

/-- Three sets for different contexts: the first two show the same, though one has a number where
the other has a text, and another name is unset; the third has the colour and the width the other
way round. -/
theorem text_eq_iff_pairs_eq_mixed :
    let color : String × Value := ("color", .text "red, width=2]")
    let s : AttrSet := ⟨.node, false, true, .ofList [color, ("width", .int 2)]⟩
    let t : AttrSet := ⟨.edge, false, false,
      .ofList [color, ("a, b", .null), ("width", .text "2")]⟩
    let u : AttrSet := ⟨.graph, false, false, .ofList [("width", .int 2), color]⟩
    (∀ r ∈ [s, t, u], r.html = false ∧ ∀ e ∈ r.pairs, Legible e) ∧ s.text = t.text ∧
      s.text ≠ u.text := by
  intro color s t u
  have hall : ∀ r ∈ [s, t, u], r.html = false ∧ ∀ e ∈ r.pairs, Legible e := by decide +kernel
  have hs := hall s (by simp)
  have ht := hall t (by simp)
  have hu := hall u (by simp)
  have hiff := text_eq_iff_pairs_eq.1
  refine ⟨hall, (hiff s t hs.1 ht.1 hs.2 ht.2).2 (by decide +kernel), fun h => ?_⟩
  have hpairs := (hiff s u hs.1 hu.1 hs.2 hu.2).1 h
  revert hpairs
  decide +kernel

/-- A quote in a quoted value makes one pair look like two. -/
example :
    let s (entries : List (String × Value)) : AttrSet := ⟨.node, false, false, .ofList entries⟩
    (s [("color", .text "a\", label=\"b")]).text =
      (s [("color", .text "a"), ("label", .text "b")]).text := by
  decide +kernel

end AttrSet

end DotBuilder
