import DotBuilder.Workspace.Nodes

/-!
# Edges

An edge joins two nodes, each given by a reference or by a name.  A name that the graph does not
list yet becomes a new plain node without attributes.  The attributes of the edge are looked at
first, so an edge that is refused makes no nodes.
-/

namespace DotBuilder

/-- One of the two ends of an edge. -/
inductive Side where
  | source
  | target
  deriving DecidableEq, Repr

/-- A node as the end of a new edge is given. -/
inductive NodeRef where
  /-- The node that the graph lists under this name, or a new one. -/
  | named (name : String)
  /-- This node, whichever graph lists it. -/
  | given (n : NodeId)
  deriving DecidableEq, Repr

namespace Edge

/-- The end at a side. -/
def endAt (r : Edge) : Side → Endpoint
  | .source => r.source
  | .target => r.target

/-- Changes the port of the end at a side. -/
def modifyPort (r : Edge) (side : Side) (f : Port → Port) : Edge :=
  match side with
  | .source => { r with source := { r.source with port := f r.source.port } }
  | .target => { r with target := { r.target with port := f r.target.port } }

end Edge

namespace Workspace

/-! ## Making edges -/

/-- The node of a reference.  A name that the graph does not list becomes a plain node of the graph,
without attributes and as strict as the graph says. -/
def resolve (w : Workspace) (g : GraphId) : NodeRef → Workspace × NodeId
  | .given n => (w, n)
  | .named name =>
    match (w.graph g).node? name with
    | some n => (w, n)
    | none =>
      let (w', p) := w.placePlain g name (w.blankNodeSet g false)
      (w', .plain p)

/-- Makes an edge in a graph, as its last one. -/
def placeEdge (w : Workspace) (g : GraphId) (source target : NodeId) (attributes : AttrSet) :
    Workspace × EdgeId :=
  let r := w.graph g
  let e : EdgeId := ⟨.graph g r.edgesMade⟩
  ({ w with
      graphs := w.graphs.set g { r with edges := r.edges ++ [e], edgesMade := r.edgesMade + 1 }
      edges := w.edges.set e ⟨g, ⟨source, .anywhere⟩, ⟨target, .anywhere⟩⟩
      sets := w.sets.set (.edge e) attributes }, e)

/-- The attribute set that an edge made in a graph starts with. -/
def blankEdgeSet (w : Workspace) (g : GraphId) : AttrSet := .blank .edge false (w.graph g).strict

/-- Makes an edge that knows a graph and is not one of its edges. -/
def newEdge (w : Workspace) (g : GraphId) (source target : NodeId) : Workspace × EdgeId :=
  let e : EdgeId := ⟨.loose w.edgesMade⟩
  ({ w with
      edges := w.edges.set e ⟨g, ⟨source, .anywhere⟩, ⟨target, .anywhere⟩⟩
      sets := w.sets.set (.edge e) (.blank .edge false false)
      edgesMade := w.edgesMade + 1 }, e)

/-! ## Changing and showing edges -/

/-- Changes the port of one end of an edge. -/
def modifyPort (w : Workspace) (e : EdgeId) (side : Side) (f : Port → Port) : Workspace :=
  { w with edges := w.edges.modify e fun r => r.modifyPort side f }

/-- The edge at a position of a graph's list; a negative position counts from the end. -/
def edgeAt (w : Workspace) (g : GraphId) (index : Int) : Except Error EdgeId :=
  let edges := (w.graph g).edges
  let position := if index < 0 then index + edges.length else index
  if position < 0 then .error .noSuchEdge
  else
    match edges[position.toNat]? with
    | some e => .ok e
    | none => .error .noSuchEdge

/-- An end of an edge as its statement shows it. -/
def endText (w : Workspace) (p : Endpoint) : String := p.port.endText (w.node p.node).name

/-- The statement of an edge.  The operator is that of the graph that the edge belongs to. -/
def edgeText (w : Workspace) (e : EdgeId) : String :=
  let r := w.edge e
  w.endText r.source ++ " " ++ (w.graph r.graph).kind.operator ++ " " ++ w.endText r.target ++
    (w.attrSet (.edge e)).text

end Workspace

/-! ## Adding edges and setting ports -/

namespace Action

/-- Adds an edge with attributes to a graph.  The source is resolved before the target. -/
def addEdge (g : GraphId) (source target : NodeRef) (given : Attrs) : Action EdgeId := do
  let blank ← read fun w => w.blankEdgeSet g
  let attributes ← fill blank given
  let s ← make fun w => w.resolve g source
  let t ← make fun w => w.resolve g target
  make fun w => w.placeEdge g s t attributes

/-- Gives one end of an edge another port.  A text that names no compass point is refused. -/
def setPort (e : EdgeId) (side : Side) (name compass : Option String) : Action Unit := do
  let c ← require fun _ => Compass.ofText compass
  change fun w => w.modifyPort e side fun p => { p with name := name }
  change fun w => w.modifyPort e side fun p => { p with compass := c }

end Action

end DotBuilder
