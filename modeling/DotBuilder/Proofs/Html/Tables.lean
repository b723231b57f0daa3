import DotBuilder.Html.Table
import DotBuilder.Proofs.Text.Delimited

/-!
# Tables are unambiguous

Tables, rows and cells are written without a separator between them, and nothing in them is escaped.
What tells them apart are the tags: an opening tag goes on with a blank before each attribute and
ends at the first `>` that stands in the place of such a blank, and what stands in a cell ends at
the next `<`.

* `shownPairs`, `Cell.shown`, `Table.shown` : what the text of a table says, as data;
* `delimited_tagEnd`, `delimited_cell`, `delimited_row`, `delimited_table` : each level of a table
  tells where it ends, given that the level below does;
* `Table.text_eq_iff` : legible tables have the same text iff they show the same;
* `CellSource.shown_cell` : a cell shows what it was given, in whichever form.
-/

namespace DotBuilder.Html

/-! ## What tables show -/

/-- The names of attributes with the texts of their values, in order. -/
def shownPairs (m : Attributes) : List (String × String) :=
  m.entries.map fun e => (e.1, e.2.plainText)

/-- What is seen of a cell: its attributes, and what stands in it. -/
abbrev CellView := List (String × String) × String

/-- What is seen of a table: its attributes, and its rows of cells. -/
abbrev TableView := List (String × String) × List (List CellView)

/-- What a cell shows. -/
def Cell.shown (c : Cell) : CellView := (shownPairs c.attributes, c.content)

/-- What a table shows. -/
def Table.shown (t : Table) : TableView :=
  (shownPairs t.attributes, t.rows.map fun row => row.map Cell.shown)

/-- A name and the text of its value that end where they are taken to end: there is no `=` in the
name and no `"` in the text. -/
def LegiblePair (e : String × String) : Prop := '=' ∉ e.1.toList ∧ '"' ∉ e.2.toList

/-- A cell with legible attributes and without a `<` inside. -/
def LegibleCell (c : CellView) : Prop := (∀ e ∈ c.1, LegiblePair e) ∧ '<' ∉ c.2.toList

/-- A table with legible attributes and legible cells. -/
def LegibleTable (t : TableView) : Prop :=
  (∀ e ∈ t.1, LegiblePair e) ∧ ∀ row ∈ t.2, ∀ c ∈ row, LegibleCell c

instance (e : String × String) : Decidable (LegiblePair e) := inferInstanceAs (Decidable (_ ∧ _))

instance (c : CellView) : Decidable (LegibleCell c) := inferInstanceAs (Decidable (_ ∧ _))

instance (t : TableView) : Decidable (LegibleTable t) := inferInstanceAs (Decidable (_ ∧ _))

/-! ## Opening tags -/

/-- An attribute in a tag, behind a blank. -/
def pairChars (e : String × String) : List Char :=
  ([' '] ++ (e.1.toList ++ ['='])) ++ (Text.inQuotes e.2).toList

/-- What stands in a tag behind the name of the element. -/
def tagEnd (ps : List (String × String)) : List Char := ps.flatMap pairChars ++ ['>']

theorem delimited_pairChars : Text.Delimited LegiblePair pairChars :=
  ((Text.delimited_terminated '=' []).behind [' ']).pair fun _ _ => Text.delimited_inQuotes

/-- A tag goes on with a blank or ends. -/
theorem delimited_tagEnd : Text.Delimited (fun ps => ∀ e ∈ ps, LegiblePair e) tagEnd := by
  refine delimited_pairChars.row fun e s _ => ?_
  rw [pairChars, List.append_assoc]
  exact Text.not_append_prefix (by decide) (by decide) _ _

theorem pairChars_eq (e : String × Value) :
    pairChars (e.1, e.2.plainText) = " ".toList ++ (attributeText e).toList := by
  simp only [pairChars, attributeText, String.toList_append, List.append_assoc]
  rfl

theorem toList_openingTag (tag : String) (m : Attributes) :
    (openingTag tag m).toList = ("<" ++ tag).toList ++ tagEnd (shownPairs m) := by
  unfold openingTag tagEnd shownPairs
  rw [List.flatMap_map]
  simp only [pairChars_eq]
  split
  · rename_i hnone
    rw [hnone, String.toList_append]
    rfl
  · rename_i e es hsome
    have hne : ((e :: es).map attributeText).map String.toList ≠ [] := by simp
    have hrow := Text.append_intercalate " ".toList hne
    rw [List.flatMap_map, List.flatMap_map] at hrow
    rw [hsome, ← hrow]
    simp only [String.toList_append, String.toList_intercalate, List.append_assoc]
    rfl

/-! ## Cells, rows and tables -/

/-- The text of a cell. -/
def cellChars (c : CellView) : List Char :=
  ['<', 't', 'd'] ++ (tagEnd c.1 ++ (c.2.toList ++ ['<', '/', 't', 'd', '>']))

/-- The text of a row. -/
def rowChars (row : List CellView) : List Char :=
  ['<', 't', 'r', '>'] ++ (row.flatMap cellChars ++ ['<', '/', 't', 'r', '>'])

/-- The text of a table. -/
def tableChars (t : TableView) : List Char :=
  ['<', 't', 'a', 'b', 'l', 'e'] ++
    (tagEnd t.1 ++ (t.2.flatMap rowChars ++ ['<', '/', 't', 'a', 'b', 'l', 'e', '>']))

/-- What stands in a cell ends where the closing tag begins. -/
theorem delimited_cell : Text.Delimited LegibleCell cellChars := by
  have hcontent := Text.delimited_terminated '<' ['/', 't', 'd', '>']
  exact (delimited_tagEnd.pair fun _ _ => hcontent).behind ['<', 't', 'd']

/-- A row goes on with a cell or ends. -/
theorem delimited_row : Text.Delimited (fun row => ∀ c ∈ row, LegibleCell c) rowChars := by
  refine (delimited_cell.row fun c s _ => ?_).behind ['<', 't', 'r', '>']
  exact Text.not_append_prefix (by decide) (by decide) _ _

theorem delimited_rows :
    Text.Delimited (fun rows : List (List CellView) => ∀ row ∈ rows, ∀ c ∈ row, LegibleCell c)
      fun rows => rows.flatMap rowChars ++ ['<', '/', 't', 'a', 'b', 'l', 'e', '>'] := by
  refine delimited_row.row fun row s _ => ?_
  exact Text.not_append_prefix (by decide) (by decide) _ _

/-- **A table goes on with a row or ends.** -/
theorem delimited_table : Text.Delimited LegibleTable tableChars :=
  (delimited_tagEnd.pair fun _ _ => delimited_rows).behind ['<', 't', 'a', 'b', 'l', 'e']

/-! ## Texts of tables -/

theorem Cell.toList_text (c : Cell) : c.text.toList = cellChars c.shown := by
  simp only [text, cellChars, shown, String.toList_append, toList_openingTag, List.append_assoc]
  rfl

theorem toList_rowText (cells : List Cell) :
    (rowText cells).toList = rowChars (cells.map Cell.shown) := by
  simp only [rowText, rowChars, String.toList_append, String.toList_join, List.flatMap_map,
    Cell.toList_text, List.append_assoc]
  rfl

theorem Table.toList_text (t : Table) : t.text.toList = tableChars t.shown := by
  simp only [text, tableChars, shown, String.toList_append, toList_openingTag, String.toList_join,
    List.flatMap_map, toList_rowText, List.append_assoc]
  rfl

/-- **Legible tables have the same text iff they show the same.** -/
theorem Table.text_eq_iff {t u : Table} (ht : LegibleTable t.shown) (hu : LegibleTable u.shown) :
    t.text = u.text ↔ t.shown = u.shown := by
  rw [← String.toList_inj, toList_text, toList_text]
  constructor
  · intro h
    have happ : tableChars t.shown ++ [] = tableChars u.shown ++ [] := by rw [h]
    exact (delimited_table ht hu happ).1
  · exact congrArg tableChars

/-! ## Cells as they are given -/

namespace CellSource

/-- What is given to stand in a cell: for fields, the content if there is one, else the data, else
nothing. -/
def contentText : CellSource → String
  | made content _ => content.plainText
  | fields (some content) _ _ => content.plainText
  | fields none (some data) _ => data.plainText
  | fields none none _ => ""

/-- What attributes are given to a cell. -/
def attributePairs : CellSource → List (String × String)
  | made _ attributes => shownPairs attributes
  | fields _ _ (some attributes) => shownPairs attributes
  | fields _ _ none => []

/-- What is given of a cell. -/
def shown (s : CellSource) : CellView := (s.attributePairs, s.contentText)

/-- **A cell shows what it was given, in whichever form.** -/
theorem shown_cell (s : CellSource) : s.cell.shown = s.shown := by
  cases s with
  | made content attributes => rfl
  | fields content data attributes =>
    refine Prod.ext ?_ ?_
    · cases attributes <;> rfl
    · cases content <;> cases data <;> rfl

end CellSource

end DotBuilder.Html
