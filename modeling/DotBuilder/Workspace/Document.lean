import DotBuilder.Outline.Section
import DotBuilder.Workspace.Clusters
import DotBuilder.Workspace.Edges

/-!
# Documents

The DOT text of a graph: the outline of the graph and its clusters, printed.  A graph that is a
cluster is printed as a part of a document even when it is printed alone, and one that is none as a
document even inside of another.
-/

namespace DotBuilder.Workspace

/-- The form of a graph's section. -/
def formOf (w : Workspace) (g : GraphId) : Form :=
  match (w.graph g).parent with
  | none => .document (w.graph g).kind
  | some _ => .subgraph

/-- The scopes for which a graph has default attributes to show, with their attribute lists. -/
def defaultsOf (w : Workspace) (g : GraphId) : List (Scope × String) :=
  [Scope.graph, .node, .edge].filterMap fun scope =>
    let text := (w.attrSet (.defaults g scope)).text
    if text = "" then none else some (scope, text)

/-- The statements of a graph: its plain nodes, its HTML nodes and its edges, in this order. -/
def statementsOf (w : Workspace) (g : GraphId) : List String :=
  (w.graph g).allNodes.map w.nodeText ++ (w.graph g).edges.map w.edgeText

/-- The section of a graph. -/
def sectionOf (w : Workspace) (g : GraphId) : Section where
  form := w.formOf g
  name := (w.graph g).name
  defaults := w.defaultsOf g
  statements := w.statementsOf g

/-- The outline of a graph and its clusters. -/
def outline? (w : Workspace) (g : GraphId) : Option (Tree Section) :=
  (w.clusterTree? g).map fun t => t.map w.sectionOf

/-- The DOT text of a graph. -/
def dotText (w : Workspace) (g : GraphId) : Except Error String :=
  match w.outline? g with
  | some t => .ok (Outline.text t)
  | none => .error .endlessNesting

end DotBuilder.Workspace
