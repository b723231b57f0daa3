import Mathlib.Algebra.Order.Ring.Nat
import Mathlib.Data.List.Basic
import DotBuilder.Text.Quoted

/-!
# Reading quoted texts

Diagnostics quote texts as string literals.  The reader here takes whatever such a literal can be,
and not only what is written by `quote`: both marks, single or tripled, line breaks behind a
backslash or between tripled marks, and escapes by letters, octal and hexadecimal numbers and names.
So the way a text is quoted has to keep clear of all of these: no character of it may be taken for a
mark or an escape, nor for a further digit of the escape before it.

* `readLiteral` : the reader;
* `escapeChar_cases` : the three ways in which `quote` writes a character;
* `exists_escapeChar_eq_cons` : each of them is read as the character, whatever follows;
* `StandsFor`, `standsFor_quote`, `quote_inj` : so a quoted text is read as the text, wherever it
  stands, and shows no controls.
-/

namespace DotBuilder.Text

/-! ## Escapes -/

/-- The letters that make an escape by themselves, and what it stands for. -/
def letterEscapes : List (Char × Char) :=
  [('\\', '\\'), (singleMark, singleMark), (doubleMark, doubleMark), ('a', Char.ofNat 7),
   ('b', Char.ofNat 8), ('f', Char.ofNat 12), ('n', '\n'), ('r', '\r'), ('t', '\t'),
   ('v', Char.ofNat 11)]

/-- The letters that come before a code point, and the number of its hexadecimal digits. -/
def codeEscapes : List (Char × Nat) := [('x', 2), ('u', 4), ('U', 8)]

/-- The value of a hexadecimal digit, in lower or upper case. -/
def hexValue? (c : Char) : Option Nat :=
  if '0' ≤ c ∧ c ≤ '9' then some (c.toNat - 48)
  else if 'a' ≤ c ∧ c ≤ 'f' then some (c.toNat - 87)
  else if 'A' ≤ c ∧ c ≤ 'F' then some (c.toNat - 55)
  else none

/-- The number that hexadecimal digits stand for. -/
def readHex (digits : List Char) : Option Nat :=
  digits.foldlM (fun n c => (hexValue? c).map (16 * n + ·)) 0

/-- The character at a code point. -/
def charAt? (n : Nat) : Option Char := if n.isValidChar then some (Char.ofNat n) else none

/-- The character at the code point of so many hexadecimal digits. -/
def readCode (width : Nat) (cs : List Char) : Option Char :=
  if width ≤ cs.length then (readHex (cs.take width)).bind charAt? else none

/-- The octal digits at the front, of which three count. -/
def octalDigits (cs : List Char) : List Char :=
  (cs.take 3).takeWhile fun c => decide ('0' ≤ c ∧ c ≤ '7')

/-- The character whose name stands in braces, and how many characters that takes. -/
def readName (names : String → Option Char) : List Char → Option (Char × Nat)
  | '\x7b' :: cs =>
    let name := cs.takeWhile fun c => decide (c ≠ '\x7d')
    if name.length < cs.length then
      (names (String.ofList name)).map fun c => (c, name.length + 2)
    else none
  | _ => none

/-- How many further characters a line break takes, if the first one begins one. -/
def lineBreak? (c : Char) (cs : List Char) : Option Nat :=
  if c = '\n' then some 0
  else if c = '\r' then some (if cs.head? = some '\n' then 1 else 0)
  else none

/-- What the escape behind a backslash stands for, and how many characters it takes.  A backslash at
the end of a line stands for nothing, and one that makes no escape stands for itself. -/
def readEscape (names : String → Option Char) : List Char → Option (List Char × Nat)
  | [] => none
  | c :: cs =>
    match lineBreak? c cs, letterEscapes.lookup c, codeEscapes.lookup c with
    | some n, _, _ => some ([], n + 1)
    | none, some d, _ => some ([d], 1)
    | none, none, some width => (readCode width cs).map fun d => ([d], width + 1)
    | none, none, none =>
      let digits := octalDigits (c :: cs)
      if digits ≠ [] then some ([Char.ofNat (Nat.ofDigitChars 8 digits 0)], digits.length)
      else if c = 'N' then (readName names cs).map fun r => ([r.1], r.2 + 1)
      else if c.toNat = 0 then none
      else some (['\\', c], 1)

/-! ## Literals -/

/-- The character is one of the two quotation marks. -/
def IsMark (c : Char) : Prop := c = singleMark ∨ c = doubleMark

instance : DecidablePred IsMark := fun c =>
  inferInstanceAs (Decidable (c = singleMark ∨ c = doubleMark))

/-- What a character inside a literal stands for, with the further ones that belong to it, and how
many these are.  Only a long literal has line breaks, and no literal has a null character. -/
def readItem (names : String → Option Char) (long : Bool) (c : Char) (cs : List Char) :
    Option (List Char × Nat) :=
  if c = '\\' then readEscape names cs
  else
    match lineBreak? c cs with
    | some n => if long then some (['\n'], n) else none
    | none => if c.toNat = 0 then none else some ([c], 0)

/-- The marks that end a literal: three for a long one. -/
def closing (long : Bool) (mark : Char) : List Char := List.replicate (if long then 3 else 1) mark

/-- What the inside of a literal stands for, and the text behind the marks that end it. -/
def readInside (names : String → Option Char) (long : Bool) (mark : Char) :
    List Char → Option (List Char × List Char)
  | [] => none
  | c :: cs =>
    if closing long mark <+: c :: cs then some ([], (c :: cs).drop (closing long mark).length)
    else
      match readItem names long c cs with
      | none => none
      | some (item, further) =>
        (readInside names long mark (cs.drop further)).map fun r => (item ++ r.1, r.2)
termination_by cs => cs.length

/-- What the literal at the front of a text stands for, and the text behind it.  The names of
characters are those that `names` knows. -/
def readLiteral (names : String → Option Char) : List Char → Option (List Char × List Char)
  | [] => none
  | mark :: cs =>
    if IsMark mark then
      if [mark, mark] <+: cs then readInside names true mark (cs.drop 2)
      else readInside names false mark cs
    else none

/-! ## Numbers -/

variable {names : String → Option Char} {printable : Char → Bool} {mark c d letter x : Char}
  {cs s rest : List Char} {width n : Nat}

theorem hexValue?_digitChar (h : n < 16) : hexValue? (Nat.digitChar n) = some n := by
  have hall : ∀ n < 16, hexValue? (Nat.digitChar n) = some n := by decide
  exact hall n h

theorem length_hexDigits (width n : Nat) : (hexDigits width n).length = width := by
  induction width generalizing n with
  | zero => rfl
  | succ width ih => simp [hexDigits, ih]

theorem mem_hexDigits (h : x ∈ hexDigits width n) : ∃ k < 16, x = Nat.digitChar k := by
  induction width generalizing n with
  | zero => cases h
  | succ width ih =>
    rcases List.mem_append.1 h with h | h
    · exact ih h
    · exact ⟨n % 16, Nat.mod_lt n (by decide), List.mem_singleton.1 h⟩

/-- Digits are read as the number, as far as they reach. -/
theorem readHex_hexDigits (width n : Nat) :
    readHex (hexDigits width n) = some (n % 16 ^ width) := by
  induction width generalizing n with
  | zero => simp [hexDigits, readHex, Nat.mod_one]
  | succ width ih =>
    have hlast : hexValue? (Nat.digitChar (n % 16)) = some (n % 16) :=
      hexValue?_digitChar (Nat.mod_lt n (by decide))
    have hsplit : 16 * (n / 16 % 16 ^ width) + n % 16 = n % 16 ^ (width + 1) := by
      rw [Nat.pow_succ', Nat.mod_mul, Nat.add_comm]
    unfold readHex at ih
    simp [hexDigits, readHex, List.foldlM_append, ih, hlast, hsplit]

theorem readCode_hexDigits (h : c.toNat < 16 ^ width) (cs : List Char) :
    readCode width (hexDigits width c.toNat ++ cs) = some c := by
  have htake : (hexDigits width c.toNat ++ cs).take width = hexDigits width c.toNat :=
    List.take_left' (length_hexDigits width c.toNat)
  have hvalid : c.toNat.isValidChar := c.valid
  simp [readCode, htake, length_hexDigits, readHex_hexDigits, Nat.mod_eq_of_lt h, charAt?, hvalid]

/-! ## Escapes as they are written -/

/-- The character is a control, as line breaks and tabs are. -/
def IsControl (c : Char) : Prop := c.toNat < 0x20 ∨ 0x7f ≤ c.toNat ∧ c.toNat ≤ 0x9f

instance : DecidablePred IsControl := fun c =>
  inferInstanceAs (Decidable (c.toNat < 0x20 ∨ 0x7f ≤ c.toNat ∧ c.toNat ≤ 0x9f))

/-- No control is taken for printable. -/
def RejectsControls (printable : Char → Bool) : Prop := ∀ c, IsControl c → printable c = false

theorem isMark_markFor (s : List Char) : IsMark (markFor s) := by
  unfold markFor
  split
  · exact .inr rfl
  · exact .inl rfl

theorem IsMark.ne_backslash (h : IsMark mark) : '\\' ≠ mark := by
  rcases h with rfl | rfl <;> decide

theorem IsMark.not_isControl (h : IsMark mark) : ¬ IsControl mark := by
  rcases h with rfl | rfl <;> decide

/-- A code point is written behind one of the letters, with as many digits as belong to it; they
are enough. -/
theorem codeEscape_eq (c : Char) : ∃ letter width, (letter, width) ∈ codeEscapes ∧
    c.toNat < 16 ^ width ∧ codeEscape c = '\\' :: letter :: hexDigits width c.toNat := by
  unfold codeEscape
  dsimp only
  split_ifs with hx hu
  · exact ⟨'x', 2, by decide, hx, rfl⟩
  · exact ⟨'u', 4, by decide, hu, rfl⟩
  · exact ⟨'U', 8, by decide, c.val.toNat_lt, rfl⟩

/-- **The three ways a character is written in a quoted text**: as itself, if it is printable and
has no meaning in literals, behind a backslash by a letter, or by its code point. -/
theorem escapeChar_cases (printable : Char → Bool) (hmark : IsMark mark) (c : Char) :
    (escapeChar printable mark c = [c] ∧ printable c = true ∧ c ≠ mark ∧ c ≠ '\\') ∨
      (∃ letter, (letter, c) ∈ letterEscapes ∧ escapeChar printable mark c = ['\\', letter]) ∨
      escapeChar printable mark c = codeEscape c := by
  unfold escapeChar
  split_ifs with hself hn hr ht hp
  · refine .inr (.inl ⟨c, ?_, rfl⟩)
    rcases hself with rfl | rfl
    · rcases hmark with rfl | rfl <;> decide
    · decide
  · exact .inr (.inl ⟨'n', hn ▸ by decide, rfl⟩)
  · exact .inr (.inl ⟨'r', hr ▸ by decide, rfl⟩)
  · exact .inr (.inl ⟨'t', ht ▸ by decide, rfl⟩)
  · exact .inl ⟨rfl, hp, (not_or.1 hself).1, (not_or.1 hself).2⟩
  · exact .inr (.inr rfl)

/-! ## Escapes as they are read -/

theorem readEscape_letter (h : (letter, d) ∈ letterEscapes) :
    readEscape names (letter :: cs) = some ([d], 1) := by
  have hall : ∀ e ∈ letterEscapes,
      letterEscapes.lookup e.1 = some e.2 ∧ e.1 ≠ '\n' ∧ e.1 ≠ '\r' := by decide
  obtain ⟨hletter, hn, hr⟩ := hall _ h
  simp only at hletter hn hr
  simp [readEscape, lineBreak?, hletter, hn, hr]

theorem readEscape_code (h : (letter, width) ∈ codeEscapes) :
    readEscape names (letter :: cs) = (readCode width cs).map fun d => ([d], width + 1) := by
  have hall : ∀ e ∈ codeEscapes, codeEscapes.lookup e.1 = some e.2 ∧
      letterEscapes.lookup e.1 = none ∧ e.1 ≠ '\n' ∧ e.1 ≠ '\r' := by decide
  obtain ⟨hcode, hletter, hn, hr⟩ := hall _ h
  simp only at hcode hletter hn hr
  simp [readEscape, lineBreak?, hcode, hletter, hn, hr]

/-- A printable character that has no meaning in literals is read as itself. -/
theorem readItem_self (hp : RejectsControls printable) (hc : printable c = true) (hne : c ≠ '\\') :
    readItem names false c cs = some ([c], 0) := by
  have hvisible : ¬ IsControl c := fun h => by simp [hp c h] at hc
  have hn : c ≠ '\n' := by
    rintro rfl
    exact hvisible (by decide)
  have hr : c ≠ '\r' := by
    rintro rfl
    exact hvisible (by decide)
  have hnull : c.toNat ≠ 0 := fun h => hvisible (.inl (by omega))
  simp [readItem, lineBreak?, hne, hn, hr, hnull]

/-- **Each character of a quoted text begins with no mark and is read as itself**, whatever follows
it. -/
theorem exists_escapeChar_eq_cons (hp : RejectsControls printable) (hmark : IsMark mark)
    (c : Char) :
    ∃ x xs, escapeChar printable mark c = x :: xs ∧ x ≠ mark ∧
      ∀ names cs, readItem names false x (xs ++ cs) = some ([c], xs.length) := by
  obtain ⟨heq, hc, hne, hbackslash⟩ | ⟨letter, hmem, heq⟩ | heq :=
    escapeChar_cases printable hmark c
  · exact ⟨c, [], heq, hne, fun _ _ => readItem_self hp hc hbackslash⟩
  · exact ⟨'\\', [letter], heq, hmark.ne_backslash, fun _ _ => readEscape_letter hmem⟩
  · obtain ⟨letter, width, hmem, hlt, hcode⟩ := codeEscape_eq c
    refine ⟨'\\', letter :: hexDigits width c.toNat, heq.trans hcode, hmark.ne_backslash, ?_⟩
    -- There are as many digits as the letter asks for, so none is taken from the text behind them.
    intro names cs
    show readEscape names (letter :: (hexDigits width c.toNat ++ cs)) = _
    rw [readEscape_code hmem, readCode_hexDigits hlt, List.length_cons, length_hexDigits]
    rfl

/-! ## The inside of a quoted text -/

theorem readInside_mark (names : String → Option Char) (mark : Char) (cs : List Char) :
    readInside names false mark (mark :: cs) = some ([], cs) := by
  rw [readInside]
  simp [closing]

theorem readInside_cons (hne : c ≠ mark) {item : List Char} {further : Nat}
    (hitem : readItem names false c cs = some (item, further)) :
    readInside names false mark (c :: cs) =
      (readInside names false mark (cs.drop further)).map fun r => (item ++ r.1, r.2) := by
  rw [readInside]
  simp [closing, hne.symm, hitem]

/-- The characters of a quoted text are read one by one, up to the mark. -/
theorem readInside_flatMap (hp : RejectsControls printable) (hmark : IsMark mark)
    (s rest : List Char) :
    readInside names false mark (s.flatMap (escapeChar printable mark) ++ mark :: rest) =
      some (s, rest) := by
  induction s with
  | nil => exact readInside_mark names mark rest
  | cons c s ih =>
    obtain ⟨x, xs, heq, hne, hread⟩ := exists_escapeChar_eq_cons hp hmark c
    rw [List.flatMap_cons, heq, List.append_assoc, List.cons_append,
      readInside_cons hne (hread names _), List.drop_left, ih]
    rfl

/-- A quoted text is not taken for a long literal.  An empty one could be, if there were a third
mark behind it. -/
theorem not_marks_prefix (hp : RejectsControls printable) (hrest : rest.head? ≠ some singleMark)
    (s : List Char) :
    ¬ [markFor s, markFor s] <+:
      s.flatMap (escapeChar printable (markFor s)) ++ markFor s :: rest := by
  cases s with
  | nil =>
    -- The first of the two marks ends the text, and the other would have to follow it.
    intro h
    have hsecond : [singleMark] <+: rest := (List.cons_prefix_cons.1 h).2
    exact hrest (List.singleton_prefix_iff_head?_eq_some.1 hsecond)
  | cons c s =>
    obtain ⟨x, xs, heq, hne, -⟩ := exists_escapeChar_eq_cons hp (isMark_markFor (c :: s)) c
    rw [List.flatMap_cons, heq]
    intro h
    exact hne (List.cons_prefix_cons.1 h).1.symm

theorem not_isControl_of_mem_escapeChar (hp : RejectsControls printable) (hmark : IsMark mark)
    (h : x ∈ escapeChar printable mark c) : ¬ IsControl x := by
  have hbackslash : ¬ IsControl '\\' := by decide
  obtain ⟨heq, hc, -, -⟩ | ⟨letter, hmem, heq⟩ | heq := escapeChar_cases printable hmark c
  · rw [heq, List.mem_singleton] at h
    subst h
    intro hcontrol
    simp [hp x hcontrol] at hc
  · have hletter : ∀ e ∈ letterEscapes, ¬ IsControl e.1 := by decide
    rw [heq, List.mem_pair] at h
    rcases h with rfl | rfl
    · exact hbackslash
    · exact hletter _ hmem
  · obtain ⟨letter, width, hmem, -, hcode⟩ := codeEscape_eq c
    have hletter : ∀ e ∈ codeEscapes, ¬ IsControl e.1 := by decide
    have hdigit : ∀ k < 16, ¬ IsControl (Nat.digitChar k) := by decide
    rw [heq, hcode, List.mem_cons, List.mem_cons] at h
    rcases h with rfl | rfl | h
    · exact hbackslash
    · exact hletter _ hmem
    · obtain ⟨k, hk, rfl⟩ := mem_hexDigits h
      exact hdigit k hk

/-! ## Quoted texts -/

/-- A quoted text is a literal of a text: where it stands, with no further mark behind it, it is
read as the text up to its end.  And it shows no controls, line breaks among them. -/
structure StandsFor (quoted text : String) : Prop where
  read (names : String → Option Char) (rest : List Char) (hrest : rest.head? ≠ some singleMark) :
    readLiteral names (quoted.toList ++ rest) = some (text.toList, rest)
  visible (c : Char) (hc : c ∈ quoted.toList) : ¬ IsControl c

/-- A quoted text stands for one text only. -/
theorem StandsFor.unique {quoted t u : String} (ht : StandsFor quoted t) (hu : StandsFor quoted u) :
    t = u := by
  have hread := (ht.read (fun _ => none) [] nofun).symm.trans (hu.read (fun _ => none) [] nofun)
  exact String.toList_inj.1 (Prod.mk.inj (Option.some.inj hread)).1

/-- **A text is read back from between its quotation marks.** -/
theorem standsFor_quote (hp : RejectsControls printable) (t : String) :
    StandsFor (quote printable t) t where
  read names rest hrest := by
    have hmark := isMark_markFor t.toList
    have hnot := not_marks_prefix hp hrest t.toList
    rw [quote, String.toList_ofList, quoteChars, List.cons_append, List.append_assoc,
      List.singleton_append, readLiteral, if_pos hmark, if_neg hnot]
    exact readInside_flatMap hp hmark t.toList rest
  visible c hc := by
    have hmark := isMark_markFor t.toList
    rw [quote, String.toList_ofList, quoteChars, List.mem_cons, List.mem_append,
      List.mem_singleton, List.mem_flatMap] at hc
    rcases hc with rfl | ⟨d, -, hd⟩ | rfl
    · exact hmark.not_isControl
    · exact not_isControl_of_mem_escapeChar hp hmark hd
    · exact hmark.not_isControl

theorem quote_inj (hp : RejectsControls printable) {t u : String} :
    quote printable t = quote printable u ↔ t = u := by
  constructor
  · intro h
    exact (standsFor_quote hp t).unique (h ▸ standsFor_quote hp u)
  · exact congrArg _

/-- Literals that are not written by `quote` are read as well. -/
example :
    readLiteral (fun _ => none) "'\\x4A\\112\\q'".toList = some (['J', 'J', '\\', 'q'], []) := by
  cbv

end DotBuilder.Text
