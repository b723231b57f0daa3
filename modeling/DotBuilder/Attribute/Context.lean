/-!
# Contexts

An attribute is meant for some of four contexts: nodes, edges, whole graphs and clusters.  This
file holds the contexts, their names, and which attributes a set of a given context takes: a set
of graph attributes takes cluster attributes too, since any graph can become a cluster.
-/

namespace DotBuilder

/-- Where an attribute can stand. -/
inductive Context where
  | node
  | edge
  | graph
  | cluster
  deriving DecidableEq, Repr

namespace Context

/-- The contexts in the order of their names. -/
def all : List Context := [.cluster, .edge, .graph, .node]

/-- The name of a context. -/
def name : Context → String
  | .node => "node"
  | .edge => "edge"
  | .graph => "graph"
  | .cluster => "cluster"

/-- The context of a name, which has to match exactly. -/
def ofName? (s : String) : Option Context := all.find? fun c => decide (c.name = s)

/-- The contexts whose attributes a set of context `c` takes. -/
def takes (c : Context) : List Context :=
  match c with
  | .graph => [.graph, .cluster]
  | _ => [c]

end Context

end DotBuilder
