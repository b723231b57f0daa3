import DotBuilder.Workspace.Action

/-!
# Nodes

A graph lists its plain nodes and its HTML nodes in two maps under one space of names.  Making a
node binds its name, in place of a node of the same sort that had it; looking a name up finds the
plain node first.  Renaming a node leaves the maps as they are.
-/

namespace DotBuilder

namespace Graph

/-- The node that a graph lists under a name: the plain one if there is one, else the HTML one. -/
def node? (r : Graph) (name : String) : Option NodeId :=
  match r.nodes.get? name with
  | some p => some (.plain p)
  | none => (r.htmlNodes.get? name).map .html

/-- The nodes that a graph lists, plain ones first. -/
def allNodes (r : Graph) : List NodeId :=
  r.nodes.values.map .plain ++ r.htmlNodes.values.map .html

/-- The names under which a graph lists nodes, those of plain ones first. -/
def nodeNames (r : Graph) : List String := r.nodes.keys ++ r.htmlNodes.keys

end Graph

namespace Workspace

/-! ## Nodes of a graph -/

/-- Makes a plain node in a graph with the given attribute set. -/
def placePlain (w : Workspace) (g : GraphId) (name : String) (attributes : AttrSet) :
    Workspace × PlainId :=
  let r := w.graph g
  let p : PlainId := ⟨.graph g r.plainMade⟩
  ({ w with
      graphs := w.graphs.set g
        { r with nodes := r.nodes.insert name p, plainMade := r.plainMade + 1 }
      nodes := w.nodes.set (.plain p) ⟨name, .node (.plain p)⟩
      sets := w.sets.set (.node (.plain p)) attributes }, p)

/-- Makes an HTML node in a graph with the given attribute set. -/
def placeHtml (w : Workspace) (g : GraphId) (name : String) (attributes : AttrSet) :
    Workspace × HtmlId :=
  let r := w.graph g
  let h : HtmlId := ⟨.graph g r.htmlMade⟩
  ({ w with
      graphs := w.graphs.set g
        { r with htmlNodes := r.htmlNodes.insert name h, htmlMade := r.htmlMade + 1 }
      nodes := w.nodes.set (.html h) ⟨name, .node (.html h)⟩
      tables := w.tables.set h .blank
      sets := w.sets.set (.node (.html h)) attributes }, h)

/-- The attribute set that a node made in a graph starts with. -/
def blankNodeSet (w : Workspace) (g : GraphId) (html : Bool) : AttrSet :=
  .blank .node html (w.graph g).strict

/-- Whether an edge ends at a node of the given name. -/
def touches (w : Workspace) (name : String) (e : EdgeId) : Bool :=
  decide ((w.node (w.edge e).source.node).name = name) ||
    decide ((w.node (w.edge e).target.node).name = name)

/-- Takes a name out of both node maps of a graph.  With `force` the edges of the graph that end at
a node of that name go too. -/
def removeNode (w : Workspace) (g : GraphId) (name : String) (force : Bool) : Workspace :=
  w.modifyGraph g fun r =>
    { r with
      nodes := r.nodes.erase name
      htmlNodes := r.htmlNodes.erase name
      edges := if force then r.edges.filter fun e => !w.touches name e else r.edges }

/-! ## Nodes on their own -/

/-- Makes a plain node outside of any graph.  Without a given set it has one of its own. -/
def newPlain (w : Workspace) (name : String) (attributes : Option SetId) :
    Workspace × PlainId :=
  let p : PlainId := ⟨.loose w.plainMade⟩
  let own : SetId := .node (.plain p)
  ({ w with
      nodes := w.nodes.set (.plain p) ⟨name, attributes.getD own⟩
      sets := w.sets.set own (.blank .node false false)
      plainMade := w.plainMade + 1 }, p)

/-- Makes an HTML node outside of any graph.  Its attribute set, also a given one, takes the label
as an HTML-like text from then on. -/
def newHtml (w : Workspace) (name : String) (attributes : Option SetId) : Workspace × HtmlId :=
  let h : HtmlId := ⟨.loose w.htmlMade⟩
  let own : SetId := .node (.html h)
  let sets := w.sets.set own (.blank .node true false)
  ({ w with
      nodes := w.nodes.set (.html h) ⟨name, attributes.getD own⟩
      tables := w.tables.set h .blank
      sets := sets.modify (attributes.getD own) fun s => { s with html := true }
      htmlMade := w.htmlMade + 1 }, h)

/-! ## Changing and showing nodes -/

/-- Gives a node another name.  The graphs that list it go on listing it under the old one. -/
def renameNode (w : Workspace) (n : NodeId) (name : String) : Workspace :=
  { w with nodes := w.nodes.modify n fun r => { r with name := name } }

/-- Changes the table of an HTML node. -/
def modifyTable (w : Workspace) (h : HtmlId) (f : Html.Table → Html.Table) : Workspace :=
  { w with tables := w.tables.modify h f }

/-- The attribute that shows the table of an HTML node. -/
def labelOf (w : Workspace) (h : HtmlId) : Attrs := OrdMap.empty.insert "label" (w.table h).label

/-- The attribute list of a node's statement; that of an HTML node has the table for its label. -/
def nodeAttributesText (w : Workspace) (n : NodeId) : String :=
  let s := w.attrSet (w.node n).attributes
  match n with
  | .plain _ => s.text
  | .html h => s.textWith (w.labelOf h)

/-- The statement of a node. -/
def nodeText (w : Workspace) (n : NodeId) : String :=
  Text.inQuotes (w.node n).name ++ w.nodeAttributesText n

end Workspace

/-! ## Adding nodes to a graph -/

namespace Action

/-- Adds a plain node with attributes to a graph. -/
def addNode (g : GraphId) (name : String) (given : Attrs) : Action PlainId := do
  let blank ← read fun w => w.blankNodeSet g false
  let attributes ← fill blank given
  make fun w => w.placePlain g name attributes

/-- Adds an HTML node with attributes to a graph. -/
def addHtmlNode (g : GraphId) (name : String) (given : Attrs) : Action HtmlId := do
  let blank ← read fun w => w.blankNodeSet g true
  let attributes ← fill blank given
  make fun w => w.placeHtml g name attributes

end Action

end DotBuilder
