import DotBuilder.Attribute.Context

/-!
# Identities

Graphs, nodes, edges and attribute sets are shared: an edge refers to its nodes, a name to a node,
and a change shows wherever the thing is referred to.  So each thing has an identifier, which says
where it was made and how many of its sort were made there before: the plain nodes that a graph
makes are numbered, and likewise its HTML nodes and its edges, and those made outside of any graph.
Making a thing in one graph therefore never changes the identifier that another graph gives next.

Attribute sets belong to the thing that they describe and are identified by it; only sets made on
their own have numbers.
-/

namespace DotBuilder

/-- A graph, by the order in which graphs are made. -/
structure GraphId where
  /-- The number of graphs made before. -/
  serial : Nat
  deriving DecidableEq, Repr

/-- Where a node or edge was made. -/
inductive Origin where
  /-- In a graph, as the one with this number among its kind. -/
  | graph (g : GraphId) (serial : Nat)
  /-- On its own. -/
  | loose (serial : Nat)
  deriving DecidableEq, Repr

/-- A plain node. -/
structure PlainId where
  /-- Where the node was made. -/
  origin : Origin
  deriving DecidableEq, Repr

/-- A node whose label is a table. -/
structure HtmlId where
  /-- Where the node was made. -/
  origin : Origin
  deriving DecidableEq, Repr

/-- A node of either sort. -/
inductive NodeId where
  | plain (p : PlainId)
  | html (h : HtmlId)
  deriving DecidableEq, Repr

/-- An edge. -/
structure EdgeId where
  /-- Where the edge was made. -/
  origin : Origin
  deriving DecidableEq, Repr

/-- What the defaults of a graph are for: the graph itself, its nodes, or its edges. -/
inductive Scope where
  | graph
  | node
  | edge
  deriving DecidableEq, Repr

namespace Scope

/-- The keyword of a block of defaults. -/
def keyword : Scope → String
  | graph => "graph"
  | node => "node"
  | edge => "edge"

/-- The context of the attributes in a block of defaults. -/
def context : Scope → Context
  | graph => .graph
  | node => .node
  | edge => .edge

end Scope

/-- An attribute set. -/
inductive SetId where
  /-- Defaults of a graph. -/
  | defaults (g : GraphId) (scope : Scope)
  /-- The set that a node was made with. -/
  | node (n : NodeId)
  /-- The set of an edge. -/
  | edge (e : EdgeId)
  /-- A set made on its own. -/
  | loose (serial : Nat)
  deriving DecidableEq, Repr

/-- Anything that has attributes. -/
inductive Object where
  | graph (g : GraphId)
  | node (n : NodeId)
  | edge (e : EdgeId)
  | set (s : SetId)
  deriving DecidableEq, Repr

end DotBuilder
