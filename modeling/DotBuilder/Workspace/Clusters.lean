import DotBuilder.Outline.Forest
import DotBuilder.Workspace.Action

/-!
# Clusters

A graph becomes a cluster of another graph of its kind by being attached to it under its name.  It
can be attached to one graph only and never to itself or to a graph inside it.  A different cluster
that the parent has under the name is let go.

`Workspace.lineage` is the chain of parents that the test for the latter walks.
`Workspace.clusterTree?` is the tree of the clusters below a graph.
-/

namespace DotBuilder

namespace Workspace

/-! ## Parents -/

/-- The first `steps` graphs of the chain of parents that starts with `g` itself. -/
def lineageFrom (w : Workspace) : Nat → GraphId → List GraphId
  | 0, _ => []
  | steps + 1, g =>
    g :: match (w.graph g).parent with
      | none => []
      | some p => w.lineageFrom steps p

/-- A graph, its parent, the parent of that, and so on.  There are no more than there are graphs. -/
def lineage (w : Workspace) (g : GraphId) : List GraphId := w.lineageFrom w.graphsMade g

/-- Says which graph a graph is a cluster of. -/
def setParent (w : Workspace) (g : GraphId) (parent : Option GraphId) : Workspace :=
  w.modifyGraph g fun r => { r with parent := parent }

/-! ## Attaching -/

/-- Why a graph cannot become a cluster of `parent`, if there is a reason. -/
def attachError? (w : Workspace) (parent child : GraphId) : Option Error :=
  let p := w.graph parent
  let c := w.graph child
  if c.kind ≠ p.kind then some (.kindMismatch c.name c.kind p.name p.kind)
  else
    match c.parent with
    | some other =>
      if other ≠ parent then some (.alreadyAttached c.name (w.graph other).name)
      else if child ∈ w.lineage parent then some (.selfContaining c.name)
      else none
    | none => if child ∈ w.lineage parent then some (.selfContaining c.name) else none

/-- Lets the cluster that a graph lists under a name go, unless it is `child`. -/
def detachOther (w : Workspace) (parent child : GraphId) (name : String) : Workspace :=
  match (w.graph parent).clusters.get? name with
  | some old => if old = child then w else w.setParent old none
  | none => w

/-- Lists a graph as a cluster under its name. -/
def listCluster (w : Workspace) (parent child : GraphId) : Workspace :=
  w.modifyGraph parent fun r =>
    { r with clusters := r.clusters.insert (w.graph child).name child }

/-- Whether a graph can become a cluster of `parent`. -/
def mayAttach (w : Workspace) (parent child : GraphId) : Except Error Unit :=
  match w.attachError? parent child with
  | some e => .error e
  | none => .ok ()

end Workspace

/-- Makes a graph a cluster of another. -/
def Action.attach (parent child : GraphId) : Action Unit := do
  require fun w => w.mayAttach parent child
  change fun w => w.detachOther parent child (w.graph child).name
  change fun w => w.listCluster parent child
  change fun w => w.setParent child (some parent)

namespace Workspace

/-! ## The tree below a graph -/

/-- The clusters that a graph lists. -/
def clusterList (w : Workspace) (g : GraphId) : List GraphId := (w.graph g).clusters.values

/-- The tree of the clusters below a graph, if it has no more than `levels` levels. -/
def clusterTreeWithin? (w : Workspace) : Nat → GraphId → Option (Tree GraphId)
  | 0, _ => none
  | levels + 1, g =>
    ((w.clusterList g).mapM (w.clusterTreeWithin? levels)).map fun ts => ⟨g, .ofTrees ts⟩

/-- The tree of the clusters below a graph.  It has no more levels than there are graphs, unless
clusters contain each other, and then there is no tree. -/
def clusterTree? (w : Workspace) (g : GraphId) : Option (Tree GraphId) :=
  w.clusterTreeWithin? w.graphsMade g

end Workspace

end DotBuilder
