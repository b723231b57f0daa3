/-!
# Kinds of graphs

A graph is undirected or directed.  Its kind decides the keyword of the document, the operator of
its edges, and how a diagnostic names it.
-/

namespace DotBuilder

/-- Whether a graph's edges have a direction. -/
inductive Kind where
  | undirected
  | directed
  deriving DecidableEq, Repr

namespace Kind

/-- The keyword that opens a document of this kind. -/
def keyword : Kind → String
  | undirected => "graph"
  | directed => "digraph"

/-- The operator between the ends of an edge. -/
def operator : Kind → String
  | undirected => "--"
  | directed => "->"

/-- The word for a graph of this kind in diagnostics. -/
def label : Kind → String
  | undirected => "Graph"
  | directed => "Digraph"

end Kind

end DotBuilder
