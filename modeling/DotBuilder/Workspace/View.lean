import DotBuilder.Workspace.Edges

/-!
# Views of a workspace

Everything that can be asked about a graph, an edge or an attribute set at once.
-/

namespace DotBuilder

/-- What there is to see of a graph. -/
structure GraphView where
  /-- The graph's name. -/
  name : String
  /-- Its kind. -/
  kind : Kind
  /-- Whether what it makes is strict. -/
  strict : Bool
  /-- The name of its parent. -/
  parent : Option String
  /-- The attributes of the graph itself. -/
  graphDefaults : Attrs
  /-- The defaults of its nodes. -/
  nodeDefaults : Attrs
  /-- The defaults of its edges. -/
  edgeDefaults : Attrs
  /-- The names that it lists plain nodes under, with their statements. -/
  nodes : List (String × String)
  /-- The names that it lists HTML nodes under, with their statements. -/
  htmlNodes : List (String × String)
  /-- The names that it lists clusters under, with the names that these have. -/
  clusters : List (String × String)
  /-- The statements of its edges. -/
  edges : List String

/-- What there is to see of one end of an edge. -/
structure EndView where
  /-- The name of the node. -/
  name : String
  /-- The port. -/
  port : Port
  /-- The end as the edge's statement shows it. -/
  text : String

/-- What there is to see of an edge. -/
structure EdgeView where
  /-- The name of the graph that the edge belongs to. -/
  graph : String
  /-- Its source. -/
  source : EndView
  /-- Its target. -/
  target : EndView
  /-- Its attributes. -/
  attributes : Attrs

/-- What there is to see of an attribute set besides its entries. -/
structure SetView where
  /-- What the attributes are for. -/
  context : Context
  /-- Whether the label is an HTML-like text. -/
  html : Bool
  /-- Whether unaccepted names are refused. -/
  strict : Bool
  /-- The number of entries. -/
  size : Nat

namespace Workspace

/-- What there is to see of a graph. -/
def graphView (w : Workspace) (g : GraphId) : GraphView :=
  let r := w.graph g
  { name := r.name
    kind := r.kind
    strict := r.strict
    parent := r.parent.map fun p => (w.graph p).name
    graphDefaults := (w.attrSet (.defaults g .graph)).entries
    nodeDefaults := (w.attrSet (.defaults g .node)).entries
    edgeDefaults := (w.attrSet (.defaults g .edge)).entries
    nodes := r.nodes.entries.map fun e => (e.1, w.nodeText (.plain e.2))
    htmlNodes := r.htmlNodes.entries.map fun e => (e.1, w.nodeText (.html e.2))
    clusters := r.clusters.entries.map fun e => (e.1, (w.graph e.2).name)
    edges := r.edges.map w.edgeText }

/-- What there is to see of an end of an edge. -/
def endView (w : Workspace) (p : Endpoint) : EndView :=
  ⟨(w.node p.node).name, p.port, w.endText p⟩

/-- What there is to see of an edge. -/
def edgeView (w : Workspace) (e : EdgeId) : EdgeView :=
  let r := w.edge e
  { graph := (w.graph r.graph).name
    source := w.endView r.source
    target := w.endView r.target
    attributes := (w.attrSet (.edge e)).entries }

/-- What there is to see of an attribute set. -/
def setView (w : Workspace) (s : SetId) : SetView :=
  let r := w.attrSet s
  ⟨r.context, r.html, r.strict, r.entries.size⟩

/-- The numbers of plain nodes and of edges of a graph. -/
def counts (w : Workspace) (g : GraphId) : Nat × Nat :=
  ((w.graph g).nodes.size, (w.graph g).edges.length)

end Workspace

end DotBuilder
