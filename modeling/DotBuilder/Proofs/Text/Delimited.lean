import DotBuilder.Text.Verbatim

/-!
# Texts that tell where they end

Attribute lists, statements and tables are put together from names, values and contents, of which
nothing is escaped and nothing is counted.  So a part can be told from such a text only if it shows
by itself where it ends: a name by the first `=` behind it, a quoted value by the next `"`.

* `Delimited` : in a text that begins with a thing as it is written, the thing and the rest of the
  text are known from the text;
* `delimited_terminated`, `delimited_inQuotes`, `delimited_of_length` : texts up to a character, and
  words of one length;
* `Delimited.behind`, `Delimited.before`, `Delimited.pair` : a thing next to a fixed word, and one
  behind another, where the first may decide how the second is written;
* `Delimited.flatMap_inj`, `Delimited.row` : rows of things, up to a word with which none begins,
  as by `not_append_prefix`;
* `append_intercalate`, `intercalate_append` : the same separator between all things of a row comes
  down to one before, or one behind, each of them.
-/

namespace DotBuilder.Text

variable {α β : Type} {p : α → Prop} {code : α → List Char}

/-- Things are written so that a text that begins with one tells which it is and where it ends. -/
def Delimited (p : α → Prop) (code : α → List Char) : Prop :=
  ∀ ⦃a b : α⦄, p a → p b → ∀ ⦃s t : List Char⦄, code a ++ s = code b ++ t → a = b ∧ s = t

/-! ## Texts up to a character -/

/-- What stands before the first occurrence of a character is known. -/
theorem append_cons_inj {c : Char} {a b s t : List Char} (ha : c ∉ a) (hb : c ∉ b)
    (h : a ++ c :: s = b ++ c :: t) : a = b ∧ s = t := by
  have hsplit : a :: s.splitOn c = b :: t.splitOn c := by
    rw [← List.splitOn_append_cons_self_of_not_mem ha, h,
      List.splitOn_append_cons_self_of_not_mem hb]
  obtain rfl : a = b := (List.cons.inj hsplit).1
  exact ⟨rfl, (List.cons.inj (List.append_cancel_left h)).2⟩

/-- A text up to a character that it does not have inside, and some word from there on. -/
theorem delimited_terminated (c : Char) (word : List Char) :
    Delimited (fun s : String => c ∉ s.toList) fun s => s.toList ++ c :: word := by
  intro a b ha hb s t h
  simp only [List.append_assoc, List.cons_append] at h
  obtain ⟨hab, hst⟩ := append_cons_inj ha hb h
  exact ⟨String.toList_inj.1 hab, List.append_cancel_left hst⟩

theorem delimited_inQuotes :
    Delimited (fun s : String => '"' ∉ s.toList) fun s => (inQuotes s).toList := by
  intro a b ha hb s t h
  simp only [toList_inQuotes, List.cons_append] at h
  exact delimited_terminated '"' [] ha hb (List.cons.inj h).2

/-- Words of one length are told by their letters. -/
theorem delimited_of_length {n : Nat} (hn : ∀ a, p a → (code a).length = n)
    (hcode : ∀ a b, p a → p b → code a = code b → a = b) : Delimited p code := by
  intro a b ha hb s t h
  obtain ⟨hab, hst⟩ := List.append_inj h ((hn a ha).trans (hn b hb).symm)
  exact ⟨hcode a b ha hb hab, hst⟩

/-! ## Putting things together -/

/-- Texts begin differently if they begin with words of which none begins with the other. -/
theorem not_append_prefix {u v : List Char} (huv : ¬ u <+: v) (hvu : ¬ v <+: u)
    (s t : List Char) : ¬ u ++ s <+: v ++ t := by
  intro h
  have hu : u <+: v ++ t := (List.prefix_append u s).trans h
  rcases List.prefix_or_prefix_of_prefix hu (List.prefix_append v t) with hprefix | hprefix
  · exact huv hprefix
  · exact hvu hprefix

namespace Delimited

/-- A thing behind a word that is always the same. -/
theorem behind (h : Delimited p code) (word : List Char) :
    Delimited p fun a => word ++ code a := by
  intro a b ha hb s t heq
  simp only [List.append_assoc] at heq
  exact h ha hb (List.append_cancel_left heq)

/-- A thing with a word behind it that is always the same. -/
theorem before (h : Delimited p code) (word : List Char) :
    Delimited p fun a => code a ++ word := by
  intro a b ha hb s t heq
  simp only [List.append_assoc] at heq
  obtain ⟨hab, hst⟩ := h ha hb heq
  exact ⟨hab, List.append_cancel_left hst⟩

/-- One thing behind another. -/
theorem pair {q : α → β → Prop} {next : α → β → List Char} (h : Delimited p code)
    (hnext : ∀ a, p a → Delimited (q a) (next a)) :
    Delimited (fun e : α × β => p e.1 ∧ q e.1 e.2) fun e => code e.1 ++ next e.1 e.2 := by
  rintro ⟨a, x⟩ ⟨b, y⟩ ⟨ha, hx⟩ ⟨hb, hy⟩ s t heq
  simp only [List.append_assoc] at heq
  obtain ⟨rfl, hrest⟩ := h ha hb heq
  obtain ⟨rfl, hst⟩ := hnext a ha hx hy hrest
  exact ⟨rfl, hst⟩

/-- A row of things ends where no further thing begins. -/
theorem flatMap_inj (h : Delimited p code) {xs ys : List α} (hxs : ∀ a ∈ xs, p a)
    (hys : ∀ a ∈ ys, p a) {s t : List Char} (hs : ∀ a, p a → ¬ code a <+: s)
    (ht : ∀ a, p a → ¬ code a <+: t) (heq : xs.flatMap code ++ s = ys.flatMap code ++ t) :
    xs = ys ∧ s = t := by
  induction xs generalizing ys with
  | nil =>
    cases ys with
    | nil => exact ⟨rfl, heq⟩
    | cons y ys =>
      -- The text behind the shorter row would begin with a thing.
      refine absurd ?_ (hs y (hys y (List.mem_cons_self ..)))
      rw [List.flatMap_nil, List.nil_append, List.flatMap_cons, List.append_assoc] at heq
      exact heq ▸ List.prefix_append ..
  | cons x xs ih =>
    obtain ⟨hx, hrow⟩ := List.forall_mem_cons.1 hxs
    cases ys with
    | nil =>
      refine absurd ?_ (ht x hx)
      rw [List.flatMap_nil, List.nil_append, List.flatMap_cons, List.append_assoc] at heq
      exact heq ▸ List.prefix_append ..
    | cons y ys =>
      obtain ⟨hy, hrow'⟩ := List.forall_mem_cons.1 hys
      rw [List.flatMap_cons, List.flatMap_cons, List.append_assoc, List.append_assoc] at heq
      obtain ⟨rfl, hrest⟩ := h hx hy heq
      obtain ⟨rfl, hst⟩ := ih hrow hrow' hrest
      exact ⟨rfl, hst⟩

/-- A row of things that is ended by a word with which no thing begins. -/
theorem row (h : Delimited p code) {stop : List Char}
    (hstop : ∀ a s, p a → ¬ code a <+: stop ++ s) :
    Delimited (fun xs : List α => ∀ a ∈ xs, p a) fun xs => xs.flatMap code ++ stop := by
  intro xs ys hxs hys s t heq
  simp only [List.append_assoc] at heq
  obtain ⟨hrows, hrest⟩ := h.flatMap_inj hxs hys (fun a => hstop a s) (fun a => hstop a t) heq
  exact ⟨hrows, List.append_cancel_left hrest⟩

end Delimited

/-! ## Separators -/

variable (sep : List Char) {xs : List (List Char)}

/-- A separator in front of each thing. -/
theorem append_intercalate (hxs : xs ≠ []) :
    sep ++ sep.intercalate xs = xs.flatMap fun x => sep ++ x := by
  induction xs with
  | nil => exact absurd rfl hxs
  | cons x xs ih =>
    cases xs with
    | nil => simp
    | cons y ys =>
      rw [List.flatMap_cons, ← ih (List.cons_ne_nil y ys), List.intercalate_cons_cons]
      simp only [List.append_assoc]

/-- A separator behind each thing. -/
theorem intercalate_append (hxs : xs ≠ []) :
    sep.intercalate xs ++ sep = xs.flatMap fun x => x ++ sep := by
  induction xs with
  | nil => exact absurd rfl hxs
  | cons x xs ih =>
    cases xs with
    | nil => simp
    | cons y ys =>
      rw [List.flatMap_cons, ← ih (List.cons_ne_nil y ys), List.intercalate_cons_cons]
      simp only [List.append_assoc]

end DotBuilder.Text
