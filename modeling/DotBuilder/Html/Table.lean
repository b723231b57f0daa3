import DotBuilder.OrdMap.Basic
import DotBuilder.Text.Verbatim
import DotBuilder.Value

/-!
# HTML-like tables

The label of an HTML node is a table of rows of cells.  Tables and cells have attributes of a
vocabulary of their own, which are written as they are.  The functions named `text` are the only
places where tables become texts.
-/

namespace DotBuilder.Html

/-- The attributes of a table or cell, in order. -/
abbrev Attributes := OrdMap String Value

/-- One attribute: its name and, between double quotes, its value. -/
def attributeText (e : String × Value) : String :=
  e.1 ++ "=" ++ Text.inQuotes e.2.plainText

/-- The opening tag of an element. -/
def openingTag (tag : String) (attributes : Attributes) : String :=
  match attributes.entries with
  | [] => "<" ++ tag ++ ">"
  | e :: es =>
    "<" ++ tag ++ " " ++ String.intercalate " " ((e :: es).map attributeText) ++ ">"

/-! ## Cells -/

/-- A cell of a table. -/
structure Cell where
  /-- What stands in the cell. -/
  content : String
  /-- The cell's attributes. -/
  attributes : Attributes

/-- A cell as it is given: made beforehand, or by fields that may be missing. -/
inductive CellSource where
  /-- A cell with its content and attributes. -/
  | made (content : Value) (attributes : Attributes)
  /-- The fields of a cell.  The content may go by either of two names, the first of which counts
  if both are there. -/
  | fields (content data : Option Value) (attributes : Option Attributes)

/-- The cell of a source.  Without content it is empty, without attributes it has none. -/
def CellSource.cell : CellSource → Cell
  | made content attributes => ⟨content.plainText, attributes⟩
  | fields content data attributes =>
    ⟨((content.or data).getD (.text "")).plainText, attributes.getD .empty⟩

/-- The text of a cell. -/
def Cell.text (c : Cell) : String := openingTag "td" c.attributes ++ c.content ++ "</td>"

/-! ## Rows and tables -/

/-- The text of a row. -/
def rowText (cells : List Cell) : String :=
  "<tr>" ++ String.join (cells.map Cell.text) ++ "</tr>"

/-- A table: its attributes and its rows of cells. -/
structure Table where
  /-- The table's attributes. -/
  attributes : Attributes
  /-- The rows, from the top down. -/
  rows : List (List Cell)

namespace Table

/-- The table without attributes and rows. -/
def blank : Table := ⟨.empty, []⟩

/-- Adds a row at the bottom. -/
def addRow (t : Table) (cells : List Cell) : Table := { t with rows := t.rows ++ [cells] }

/-- Replaces the table's attributes. -/
def setAttributes (t : Table) (attributes : Attributes) : Table :=
  { t with attributes := attributes }

/-- The text of a table. -/
def text (t : Table) : String :=
  openingTag "table" t.attributes ++ String.join (t.rows.map rowText) ++ "</table>"

/-- The table as the value of a label attribute: in angle brackets. -/
def label (t : Table) : Value := .text ("<" ++ t.text ++ ">")

end Table

end DotBuilder.Html
