import DotBuilder.Attribute.Set
import DotBuilder.Graph.Port
import DotBuilder.Html.Table
import DotBuilder.Object
import DotBuilder.Registry

/-!
# The workspace

A workspace holds all graphs, nodes, edges and attribute sets that were made so far, each under its
identifier.  This file has the records, the workspace, and the operations that concern graphs and
attribute sets alone; nodes, edges and clusters follow in files of their own.
-/

namespace DotBuilder

/-! ## Records -/

/-- A node: its name and its attributes.  The table of an HTML node is kept apart. -/
structure Node where
  /-- The name that statements show. -/
  name : String
  /-- The node's attribute set, which other nodes may share. -/
  attributes : SetId
  deriving DecidableEq, Repr

/-- One end of an edge. -/
structure Endpoint where
  /-- The node at this end. -/
  node : NodeId
  /-- Where the edge meets the node. -/
  port : Port
  deriving DecidableEq, Repr

/-- An edge: the graph that it belongs to and its two ends. -/
structure Edge where
  /-- The graph whose kind decides the operator. -/
  graph : GraphId
  /-- Where the edge starts. -/
  source : Endpoint
  /-- Where the edge ends. -/
  target : Endpoint
  deriving DecidableEq, Repr

/-- A graph. -/
structure Graph where
  /-- Whether its edges have a direction. -/
  kind : Kind
  /-- The name that statements show. -/
  name : String
  /-- Whether the nodes and edges that it makes have strict attribute sets. -/
  strict : Bool
  /-- The graph that it is a cluster of. -/
  parent : Option GraphId
  /-- Its clusters, under the names that they had when they were attached. -/
  clusters : OrdMap String GraphId
  /-- Its plain nodes, under the names that they were made with. -/
  nodes : OrdMap String PlainId
  /-- Its HTML nodes, under the names that they were made with. -/
  htmlNodes : OrdMap String HtmlId
  /-- Its edges, oldest first. -/
  edges : List EdgeId
  /-- The number of plain nodes made in it. -/
  plainMade : Nat
  /-- The number of HTML nodes made in it. -/
  htmlMade : Nat
  /-- The number of edges made in it. -/
  edgesMade : Nat

/-- A graph without content. -/
def Graph.blank (kind : Kind) (name : String) (strict : Bool) : Graph where
  kind := kind
  name := name
  strict := strict
  parent := none
  clusters := .empty
  nodes := .empty
  htmlNodes := .empty
  edges := []
  plainMade := 0
  htmlMade := 0
  edgesMade := 0

/-- All things made so far. -/
structure Workspace where
  /-- The graphs. -/
  graphs : Registry GraphId Graph
  /-- The nodes of both sorts. -/
  nodes : Registry NodeId Node
  /-- The tables of the HTML nodes. -/
  tables : Registry HtmlId Html.Table
  /-- The edges. -/
  edges : Registry EdgeId Edge
  /-- The attribute sets. -/
  sets : Registry SetId AttrSet
  /-- The number of graphs made. -/
  graphsMade : Nat
  /-- The number of plain nodes made outside of graphs. -/
  plainMade : Nat
  /-- The number of HTML nodes made outside of graphs. -/
  htmlMade : Nat
  /-- The number of edges made outside of graphs. -/
  edgesMade : Nat
  /-- The number of attribute sets made on their own. -/
  setsMade : Nat

namespace Workspace

/-- The workspace in which nothing was made yet. -/
def empty : Workspace where
  graphs := .const (.blank .undirected "" false)
  nodes := .const ⟨"", .loose 0⟩
  tables := .const .blank
  edges := .const ⟨⟨0⟩, ⟨.plain ⟨.loose 0⟩, .anywhere⟩, ⟨.plain ⟨.loose 0⟩, .anywhere⟩⟩
  sets := .const (.blank .node false false)
  graphsMade := 0
  plainMade := 0
  htmlMade := 0
  edgesMade := 0
  setsMade := 0

/-! ## Reading and writing records -/

/-- The record of a graph. -/
def graph (w : Workspace) (g : GraphId) : Graph := w.graphs.get g

/-- The record of a node. -/
def node (w : Workspace) (n : NodeId) : Node := w.nodes.get n

/-- The table of an HTML node. -/
def table (w : Workspace) (h : HtmlId) : Html.Table := w.tables.get h

/-- The record of an edge. -/
def edge (w : Workspace) (e : EdgeId) : Edge := w.edges.get e

/-- An attribute set. -/
def attrSet (w : Workspace) (s : SetId) : AttrSet := w.sets.get s

/-- Changes the record of a graph. -/
def modifyGraph (w : Workspace) (g : GraphId) (f : Graph → Graph) : Workspace :=
  { w with graphs := w.graphs.modify g f }

/-- Changes an attribute set. -/
def modifySet (w : Workspace) (s : SetId) (f : AttrSet → AttrSet) : Workspace :=
  { w with sets := w.sets.modify s f }

/-- The attribute set of a thing; that of a graph has the attributes of the graph itself. -/
def setOf (w : Workspace) : Object → SetId
  | .graph g => .defaults g .graph
  | .node n => (w.node n).attributes
  | .edge e => .edge e
  | .set s => s

/-! ## Things that were made -/

/-- Whether a graph was made. -/
def madeGraph (w : Workspace) (g : GraphId) : Bool := decide (g.serial < w.graphsMade)

/-- Whether a node was made. -/
def madeNode (w : Workspace) : NodeId → Bool
  | .plain ⟨.graph g serial⟩ => w.madeGraph g && decide (serial < (w.graph g).plainMade)
  | .plain ⟨.loose serial⟩ => decide (serial < w.plainMade)
  | .html ⟨.graph g serial⟩ => w.madeGraph g && decide (serial < (w.graph g).htmlMade)
  | .html ⟨.loose serial⟩ => decide (serial < w.htmlMade)

/-- Whether an edge was made. -/
def madeEdge (w : Workspace) : EdgeId → Bool
  | ⟨.graph g serial⟩ => w.madeGraph g && decide (serial < (w.graph g).edgesMade)
  | ⟨.loose serial⟩ => decide (serial < w.edgesMade)

/-- Whether an attribute set was made. -/
def madeSet (w : Workspace) : SetId → Bool
  | .defaults g _ => w.madeGraph g
  | .node n => w.madeNode n
  | .edge e => w.madeEdge e
  | .loose serial => decide (serial < w.setsMade)

/-- Whether a thing was made. -/
def made (w : Workspace) : Object → Bool
  | .graph g => w.madeGraph g
  | .node n => w.madeNode n
  | .edge e => w.madeEdge e
  | .set s => w.madeSet s

/-! ## Graphs -/

/-- The attribute set that a graph starts with for a scope. -/
def blankDefaults (scope : Scope) (strict : Bool) : AttrSet := .blank scope.context false strict

/-- Makes a graph. -/
def newGraph (w : Workspace) (kind : Kind) (name : String) (strict : Bool) :
    Workspace × GraphId :=
  let g : GraphId := ⟨w.graphsMade⟩
  let sets := ((w.sets.set (.defaults g .graph) (blankDefaults .graph strict)).set
    (.defaults g .node) (blankDefaults .node strict)).set
    (.defaults g .edge) (blankDefaults .edge strict)
  ({ w with
      graphs := w.graphs.set g (.blank kind name strict)
      sets := sets
      graphsMade := w.graphsMade + 1 }, g)

/-- How diagnostics show a graph. -/
def describe (w : Workspace) (g : GraphId) : String :=
  (w.graph g).kind.label ++ "(id=" ++ quoteText (w.graph g).name ++ ")"

/-- Gives a graph another name.  The graphs that list it go on listing it under the old one. -/
def renameGraph (w : Workspace) (g : GraphId) (name : String) : Workspace :=
  w.modifyGraph g fun r => { r with name := name }

/-- Says whether nodes and edges made in the graph from now on are strict. -/
def setGraphStrict (w : Workspace) (g : GraphId) (strict : Bool) : Workspace :=
  w.modifyGraph g fun r => { r with strict := strict }

/-! ## Attribute sets -/

/-- Makes an attribute set with the given entries, which are not checked. -/
def newSet (w : Workspace) (context : Context) (html strict : Bool) (entries : Attrs) :
    Workspace × SetId :=
  let s : SetId := .loose w.setsMade
  ({ w with
      sets := w.sets.set s ⟨context, html, strict, entries⟩
      setsMade := w.setsMade + 1 }, s)

/-- Says whether a set refuses unaccepted names from now on. -/
def setStrict (w : Workspace) (s : SetId) (strict : Bool) : Workspace :=
  w.modifySet s fun r => { r with strict := strict }

end Workspace

end DotBuilder
