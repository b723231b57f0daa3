import DotBuilder.Workspace.Clusters
import DotBuilder.Workspace.Edges

/-!
# Lint

The lint of a graph goes through the graph and all clusters below it, each before its own clusters.
Faults are names under which a graph lists both a plain and an HTML node.  Warnings are attributes
that their context does not take, and edge ends whose node's name no graph of the tree lists.
-/

namespace DotBuilder.Workspace

/-- The names under which some graph of a list lists nodes. -/
def knownNames (w : Workspace) (gs : List GraphId) : List String :=
  gs.flatMap fun g => (w.graph g).nodeNames

/-- The context that the attributes of a graph itself are looked at in. -/
def graphContext (w : Workspace) (g : GraphId) : Context :=
  match (w.graph g).parent with
  | none => .graph
  | some _ => .cluster

/-- The names that a graph lists a plain and an HTML node under. -/
def duplicateNames (w : Workspace) (g : GraphId) : List String :=
  (w.graph g).nodes.keys.filter (w.graph g).htmlNodes.contains

/-- What is found on the attributes of a set. -/
def lintSet (w : Workspace) (c : Context) (s : SetId) : Findings :=
  attrsFindings c (w.attrSet s).entries

/-- What is found on the end of an edge. -/
def lintEnd (w : Workspace) (known : List String) (p : Endpoint) : Findings :=
  let name := (w.node p.node).name
  if name ∈ known then .empty else .ofWarnings [.missingNode name]

/-- What is found on an edge. -/
def lintEdge (w : Workspace) (known : List String) (e : EdgeId) : Findings :=
  w.lintSet .edge (.edge e) ++ w.lintEnd known (w.edge e).source ++
    w.lintEnd known (w.edge e).target

/-- What is found on a graph, its clusters aside, where `known` are the names of nodes. -/
def lintGraph (w : Workspace) (known : List String) (g : GraphId) : Findings :=
  .ofErrors ((w.duplicateNames g).map fun name => .duplicateNode (w.graph g).name name) ++
    w.lintSet (w.graphContext g) (.defaults g .graph) ++
    w.lintSet .node (.defaults g .node) ++
    w.lintSet .edge (.defaults g .edge) ++
    .concat ((w.graph g).allNodes.map fun n => w.lintSet .node (w.node n).attributes) ++
    .concat ((w.graph g).edges.map (w.lintEdge known))

/-- What is found on a tree of graphs. -/
def lintTree (w : Workspace) (t : Tree GraphId) : Findings :=
  .concat (t.preorder.map (w.lintGraph (w.knownNames t.preorder)))

/-- What is found on a graph and its clusters. -/
def lint (w : Workspace) (g : GraphId) : Except Error Findings :=
  match w.clusterTree? g with
  | some t => .ok (w.lintTree t)
  | none => .error .endlessNesting

end DotBuilder.Workspace
