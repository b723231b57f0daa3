import DotBuilder.Graph.Kind
import DotBuilder.Object
import DotBuilder.Outline.Forest
import DotBuilder.Text.Verbatim

/-!
# Outlines of documents

The outline of a graph has a section for the graph and one for each of its clusters, nested as the
clusters are.  A section has an opening line, the blocks of defaults, the sections of the clusters,
the statements, and a closing line.  `Section.text` and `Outline.text` are the only places where
outlines become texts.

How far a line is indented depends on the section that it stands in alone and not on how deep that
section is nested.
-/

namespace DotBuilder

/-- How a section opens and closes. -/
inductive Form where
  /-- A document of its own. -/
  | document (kind : Kind)
  /-- A part of another section. -/
  | subgraph
  deriving DecidableEq, Repr

/-- The part of a document that belongs to one graph. -/
structure Section where
  /-- How the section opens and closes. -/
  form : Form
  /-- The graph's name. -/
  name : String
  /-- The attribute lists of its blocks of defaults; scopes without attributes have no block. -/
  defaults : List (Scope × String)
  /-- The statements of its nodes and edges. -/
  statements : List String
  deriving DecidableEq, Repr

namespace Form

/-- The blanks in front of a section's lines. -/
def indent : Form → String
  | document _ => "  "
  | subgraph => "    "

/-- What stands in front of the name in the opening line. -/
def keyword : Form → String
  | document kind => kind.keyword
  | subgraph => "  subgraph"

/-- The closing line; a part of a section leaves its line break to that section. -/
def closing : Form → String
  | document _ => "\x7d\n"
  | subgraph => "  \x7d"

end Form

namespace Section

/-- The opening line. -/
def opening (s : Section) : String := s.form.keyword ++ " " ++ Text.inQuotes s.name ++ " \x7b\n"

/-- A line of the section. -/
def line (s : Section) (content : String) : String := s.form.indent ++ content ++ ";\n"

/-- The content of the line of a block of defaults. -/
def defaultsText (d : Scope × String) : String := d.1.keyword ++ d.2

/-- The text of a section around the text of the clusters. -/
def text (s : Section) (clusters : String) : String :=
  s.opening ++ String.join (s.defaults.map fun d => s.line (defaultsText d)) ++ clusters ++
    String.join (s.statements.map s.line) ++ s.form.closing

end Section

namespace Outline

/-- The texts of a row of sections, each with a line break behind it. -/
def rowText : Forest Section → String
  | .nil => ""
  | .cons s below rest => s.text (rowText below) ++ "\n" ++ rowText rest

/-- The text of a section with all that is nested in it. -/
def text (t : Tree Section) : String := t.root.text (rowText t.below)

end Outline

end DotBuilder
