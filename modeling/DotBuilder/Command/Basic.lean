import DotBuilder.Log
import DotBuilder.Workspace.View

/-!
# Commands and answers

A session is a list of commands on a workspace.  `Command` has one constructor for each thing that
can be done or asked, `Answer` one for each shape of answer.  `Outcome` is what a command that is
not refused gives back: its answer and the thing that it made or found.  `Reply` is what there is to
see of any command: its outcome, or why it was refused, and what it noted down.
-/

namespace DotBuilder

/-- Something to be done in a workspace or asked of it. -/
inductive Command where
  /-- Make a graph. -/
  | newGraph (kind : Kind) (name : String) (strict : Bool)
  /-- Make an attribute set on its own for the context of the given name. -/
  | newSet (context : String) (html strict : Bool) (entries : Attrs)
  /-- Make a plain node on its own, on a set of its own or a given one. -/
  | newNode (name : String) (attributes : Option SetId)
  /-- Make an HTML node on its own, on a set of its own or a given one. -/
  | newHtmlNode (name : String) (attributes : Option SetId)
  /-- Make an edge that knows a graph and is not listed by it. -/
  | newEdge (g : GraphId) (source target : NodeId)
  /-- Add a plain node to a graph. -/
  | addNode (g : GraphId) (name : String) (given : Attrs)
  /-- Add an HTML node to a graph. -/
  | addHtmlNode (g : GraphId) (name : String) (given : Attrs)
  /-- Look a node up by its name. -/
  | findNode (g : GraphId) (name : String)
  /-- Remove a node by its name, with the edges that end at it if forced. -/
  | removeNode (g : GraphId) (name : String) (force : Bool)
  /-- Add an edge to a graph. -/
  | addEdge (g : GraphId) (source target : NodeRef) (given : Attrs)
  /-- Look an edge up by its position. -/
  | findEdge (g : GraphId) (index : Int)
  /-- Make a graph a cluster of another. -/
  | attach (parent child : GraphId)
  /-- Store attributes in the set of a thing. -/
  | assign (o : Object) (given : Attrs)
  /-- Store attributes in the defaults of a graph. -/
  | assignDefaults (g : GraphId) (scope : Scope) (given : Attrs)
  /-- Ask for the attributes of a thing. -/
  | showEntries (o : Object)
  /-- Ask for the defaults of a graph. -/
  | showDefaults (g : GraphId) (scope : Scope)
  /-- Ask for the DOT text of a thing. -/
  | showText (o : Object)
  /-- Ask for the attribute list of a set with further attributes for this once. -/
  | showTextWith (s : SetId) (extra : Attrs)
  /-- Ask how diagnostics show a graph. -/
  | describe (g : GraphId)
  /-- Lint a graph and its clusters. -/
  | lint (g : GraphId)
  /-- Give a graph another name. -/
  | renameGraph (g : GraphId) (name : String)
  /-- Give a node another name. -/
  | renameNode (n : NodeId) (name : String)
  /-- Say whether what a graph makes from now on is strict. -/
  | setGraphStrict (g : GraphId) (strict : Bool)
  /-- Say whether a set is strict. -/
  | setStrict (s : SetId) (strict : Bool)
  /-- Save a graph's DOT text in an empty directory. -/
  | save (g : GraphId) (stem directory : Option RawText)
  /-- Ask for all there is to see of a graph. -/
  | showGraph (g : GraphId)
  /-- Ask for all there is to see of an edge. -/
  | showEdge (e : EdgeId)
  /-- Ask for the attribute set of a node or edge. -/
  | showSet (o : Object)
  /-- Ask whether two things are one. -/
  | same (o p : Object)
  /-- Add a row to the table of an HTML node. -/
  | addRow (h : HtmlId) (cells : List Html.CellSource)
  /-- Replace the attributes of the table of an HTML node, which have to be there. -/
  | setTable (h : HtmlId) (attributes : Option Html.Attributes)
  /-- Ask for the table of an HTML node. -/
  | showTable (h : HtmlId)
  /-- Ask for the rows of the table of an HTML node. -/
  | showRows (h : HtmlId)
  /-- Give one end of an edge another port. -/
  | setPort (e : EdgeId) (side : Side) (name compass : Option String)
  /-- Ask for the node at one end of an edge. -/
  | endNode (e : EdgeId) (side : Side)

/-- The things that the end of a new edge refers to. -/
def NodeRef.mentions : NodeRef → List Object
  | named _ => []
  | given n => [.node n]

/-- The things that a command refers to, which have to be made before it. -/
def Command.mentions : Command → List Object
  | newGraph .. | newSet .. => []
  | newNode _ attributes | newHtmlNode _ attributes => attributes.toList.map .set
  | newEdge g source target => [.graph g, .node source, .node target]
  | addNode g .. | addHtmlNode g .. | findNode g _ | removeNode g .. => [.graph g]
  | addEdge g source target _ => .graph g :: (source.mentions ++ target.mentions)
  | findEdge g _ => [.graph g]
  | attach parent child => [.graph parent, .graph child]
  | assign o _ | showEntries o | showText o | showSet o => [o]
  | assignDefaults g .. | showDefaults g _ | describe g | lint g => [.graph g]
  | renameGraph g _ | setGraphStrict g _ | save g .. | showGraph g => [.graph g]
  | showTextWith s _ | setStrict s _ => [.set s]
  | renameNode n _ => [.node n]
  | showEdge e | setPort e .. | endNode e _ => [.edge e]
  | same o p => [o, p]
  | addRow h _ | setTable h _ | showTable h | showRows h => [.node (.html h)]

/-! ## Answers -/

/-- The answer to a command. -/
inductive Answer where
  /-- A text. -/
  | text (s : String)
  /-- Texts in order. -/
  | texts (ss : List String)
  /-- A truth value. -/
  | flag (b : Bool)
  /-- A number. -/
  | count (n : Nat)
  /-- The numbers of plain nodes and of edges of a graph. -/
  | counts (nodes edges : Nat)
  /-- The result of a check. -/
  | findings (r : Findings)
  /-- Attributes. -/
  | entries (m : Attrs)
  /-- The statement of a node that was found, and whether it is an HTML node. -/
  | node (html : Bool) (statement : String)
  /-- Nothing was found. -/
  | nothing
  /-- The statement of a new edge, and the numbers of plain nodes and of edges of its graph. -/
  | edgeAdded (statement : String) (nodes edges : Nat)
  /-- All of a graph. -/
  | graph (v : GraphView)
  /-- All of an edge. -/
  | edge (v : EdgeView)
  /-- The marks of an attribute set. -/
  | set (v : SetView)
  /-- How saving ended, and the files that are there then. -/
  | saved (s : Saved)

/-- What a command that is not refused gives back. -/
structure Outcome where
  /-- The answer. -/
  answer : Answer
  /-- The thing that was made or found. -/
  object : Option Object

namespace Outcome

/-- An answer alone. -/
def ofAnswer (a : Answer) : Outcome := ⟨a, none⟩

/-- An answer together with a thing that was made or found. -/
def ofObject (a : Answer) (o : Object) : Outcome := ⟨a, some o⟩

end Outcome

/-- What there is to see of a command that was tried. -/
structure Reply where
  /-- The outcome, or why the command was refused. -/
  result : Except Error Outcome
  /-- What was noted down. -/
  log : List LogEntry

end DotBuilder
