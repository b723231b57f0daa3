import DotBuilder.Proofs.Effect

/-!
# The cells of a workspace

A command changes a few parts of a workspace and looks at a few.  A `Cell` is such a part: the head
of a graph's record, its parent, one of its lists, the record of a node, a table, the nodes of an
edge, a port, or one of the two halves of an attribute set.  What a cell holds is its content, and a
workspace is its cells, but for the numbers of things made on their own.

* `content_write_self`, `content_write_of_ne` : a write changes the content of its cell alone;
* `content_writeAll_of_notMem` : what a list of writes does not name it does not change.
-/

namespace DotBuilder

/-- A part of a workspace that is read and written as a whole. -/
inductive Cell where
  /-- The kind and the name of a graph, and whether it is strict. -/
  | head (g : GraphId)
  /-- The parent of a graph. -/
  | parent (g : GraphId)
  /-- The clusters that a graph lists. -/
  | clusters (g : GraphId)
  /-- The plain nodes that a graph lists, and the number of those that it made. -/
  | plainNodes (g : GraphId)
  /-- The HTML nodes that a graph lists, and the number of those that it made. -/
  | htmlNodes (g : GraphId)
  /-- The edges that a graph lists, and the number of those that it made. -/
  | edges (g : GraphId)
  /-- The record of a node. -/
  | node (n : NodeId)
  /-- The table of an HTML node. -/
  | table (h : HtmlId)
  /-- The graph that an edge belongs to and its two nodes. -/
  | ends (e : EdgeId)
  /-- The port at one end of an edge. -/
  | port (e : EdgeId) (side : Side)
  /-- The context of an attribute set, and whether it is strict. -/
  | rules (s : SetId)
  /-- The attributes of a set, and whether the label is an HTML-like text. -/
  | entries (s : SetId)
  deriving DecidableEq

/-- What a cell can hold. -/
abbrev Cell.Content : Cell → Type
  | head _ => Kind × String × Bool
  | parent _ => Option GraphId
  | clusters _ => OrdMap String GraphId
  | plainNodes _ => OrdMap String PlainId × Nat
  | htmlNodes _ => OrdMap String HtmlId × Nat
  | edges _ => List EdgeId × Nat
  | node _ => Node
  | table _ => Html.Table
  | ends _ => GraphId × NodeId × NodeId
  | port .. => Port
  | rules _ => Context × Bool
  | entries _ => Bool × Attrs

/-- A write of a cell. -/
structure Write where
  /-- The cell that is written. -/
  cell : Cell
  /-- What it holds from then on. -/
  value : cell.Content

/-- What a workspace counts as a whole: graphs, and what is made on its own. -/
inductive Series where
  | graphs
  | plain
  | html
  | edges
  | sets
  deriving DecidableEq

namespace Workspace

variable {w : Workspace} {k : Cell}

/-- What a cell holds. -/
def content (w : Workspace) : (k : Cell) → k.Content
  | .head g => ((w.graph g).kind, (w.graph g).name, (w.graph g).strict)
  | .parent g => (w.graph g).parent
  | .clusters g => (w.graph g).clusters
  | .plainNodes g => ((w.graph g).nodes, (w.graph g).plainMade)
  | .htmlNodes g => ((w.graph g).htmlNodes, (w.graph g).htmlMade)
  | .edges g => ((w.graph g).edges, (w.graph g).edgesMade)
  | .node n => w.node n
  | .table h => w.table h
  | .ends e => ((w.edge e).graph, (w.edge e).source.node, (w.edge e).target.node)
  | .port e side => ((w.edge e).endAt side).port
  | .rules s => ((w.attrSet s).context, (w.attrSet s).strict)
  | .entries s => ((w.attrSet s).html, (w.attrSet s).entries)

/-- Writes a cell. -/
def write (w : Workspace) : Write → Workspace
  | ⟨.head g, v⟩ => w.modifyGraph g fun r =>
      { r with kind := v.1, name := v.2.1, strict := v.2.2 }
  | ⟨.parent g, v⟩ => w.modifyGraph g fun r => { r with parent := v }
  | ⟨.clusters g, v⟩ => w.modifyGraph g fun r => { r with clusters := v }
  | ⟨.plainNodes g, v⟩ => w.modifyGraph g fun r => { r with nodes := v.1, plainMade := v.2 }
  | ⟨.htmlNodes g, v⟩ => w.modifyGraph g fun r => { r with htmlNodes := v.1, htmlMade := v.2 }
  | ⟨.edges g, v⟩ => w.modifyGraph g fun r => { r with edges := v.1, edgesMade := v.2 }
  | ⟨.node n, v⟩ => { w with nodes := w.nodes.set n v }
  | ⟨.table h, v⟩ => { w with tables := w.tables.set h v }
  | ⟨.ends e, v⟩ => { w with edges := w.edges.modify e fun r =>
      ⟨v.1, ⟨v.2.1, r.source.port⟩, ⟨v.2.2, r.target.port⟩⟩ }
  | ⟨.port e side, v⟩ => w.modifyPort e side fun _ => v
  | ⟨.rules s, v⟩ => w.modifySet s fun r => { r with context := v.1, strict := v.2 }
  | ⟨.entries s, v⟩ => w.modifySet s fun r => { r with html := v.1, entries := v.2 }

/-! ## Single writes -/

theorem content_write_self (w : Workspace) (x : Write) : (w.write x).content x.cell = x.value := by
  obtain ⟨k, v⟩ := x
  cases k with
  | port e side =>
    cases side <;>
      simp [write, content, modifyPort, edge, Registry.get_modify, Edge.modifyPort, Edge.endAt]
  | _ => simp [write, content, modifyGraph, modifySet, graph, node, table, edge, attrSet,
      Registry.get_modify, Registry.get_set]

theorem content_write_of_ne {x : Write} (hk : k ≠ x.cell) :
    (w.write x).content k = w.content k := by
  obtain ⟨l, v⟩ := x
  cases l with
  | head g | parent g | clusters g | plainNodes g | htmlNodes g | edges g =>
    cases k with
    | head h | parent h | clusters h | plainNodes h | htmlNodes h | edges h =>
      by_cases hg : h = g <;> simp_all [write, content, modifyGraph, graph, Registry.get_modify]
    | _ => rfl
  | node n | table n =>
    cases k <;> first | rfl | simp_all [write, content, node, table, Registry.get_set]
  | ends e =>
    cases k with
    | ends i => simp_all [write, content, edge, Registry.get_modify]
    | port i side =>
      by_cases he : i = e <;> cases side <;>
        simp [write, content, edge, Registry.get_modify, Edge.endAt, he]
    | _ => rfl
  | port e side =>
    cases k with
    | ends i =>
      by_cases he : i = e <;> cases side <;>
        simp [write, content, edge, modifyPort, Registry.get_modify, Edge.modifyPort, he]
    | port i side' =>
      by_cases he : i = e <;> cases side <;> cases side' <;>
        simp_all [write, content, edge, modifyPort, Registry.get_modify, Edge.modifyPort,
          Edge.endAt]
    | _ => rfl
  | rules s | entries s =>
    cases k with
    | rules r | entries r =>
      by_cases hs : r = s <;> simp_all [write, content, modifySet, attrSet, Registry.get_modify]
    | _ => rfl

/-! ## Lists of writes -/

/-- Writes cells one after another. -/
def writeAll (w : Workspace) (xs : List Write) : Workspace := xs.foldl write w

theorem writeAll_cons (w : Workspace) (x : Write) (xs : List Write) :
    w.writeAll (x :: xs) = (w.write x).writeAll xs := rfl

theorem writeAll_append (w : Workspace) (xs ys : List Write) :
    w.writeAll (xs ++ ys) = (w.writeAll xs).writeAll ys :=
  List.foldl_append

/-- After writes a cell holds what one of them says, or what it held before if none names it. -/
theorem content_writeAll {P : (k : Cell) → k.Content → Prop} {xs : List Write}
    (hx : ∀ x ∈ xs, P x.cell x.value) (hw : (∀ x ∈ xs, x.cell ≠ k) → P k (w.content k)) :
    P k ((w.writeAll xs).content k) := by
  induction xs generalizing w with
  | nil => exact hw fun x h => nomatch h
  | cons x xs ih =>
    rw [writeAll_cons]
    refine ih (fun y hy => hx y (List.mem_cons_of_mem _ hy)) fun hxs => ?_
    by_cases hk : k = x.cell
    · subst hk
      rw [content_write_self]
      exact hx x (List.mem_cons_self ..)
    · rw [content_write_of_ne hk]
      exact hw (List.forall_mem_cons.2 ⟨fun h => hk h.symm, hxs⟩)

/-- What no write names stays as it is. -/
theorem content_writeAll_of_notMem {xs : List Write} (hk : ∀ x ∈ xs, x.cell ≠ k) :
    (w.writeAll xs).content k = w.content k := by
  induction xs generalizing w with
  | nil => rfl
  | cons x xs ih =>
    obtain ⟨hx, hxs⟩ := List.forall_mem_cons.1 hk
    rw [writeAll_cons, ih hxs, content_write_of_ne fun h => hx h.symm]

/-! ## Numbers -/

/-- The number of things of a series that were made. -/
def count (w : Workspace) : Series → Nat
  | .graphs => w.graphsMade
  | .plain => w.plainMade
  | .html => w.htmlMade
  | .edges => w.edgesMade
  | .sets => w.setsMade

/-- Counts one more thing of a series, if one is given. -/
def advance (w : Workspace) : Option Series → Workspace
  | none => w
  | some .graphs => { w with graphsMade := w.graphsMade + 1 }
  | some .plain => { w with plainMade := w.plainMade + 1 }
  | some .html => { w with htmlMade := w.htmlMade + 1 }
  | some .edges => { w with edgesMade := w.edgesMade + 1 }
  | some .sets => { w with setsMade := w.setsMade + 1 }

theorem content_advance (s : Option Series) : (w.advance s).content k = w.content k := by
  rcases s with _ | _ | _ | _ | _ | _ <;> cases k <;> rfl

theorem count_advance (s : Option Series) (t : Series) :
    (w.advance s).count t = if s = some t then w.count t + 1 else w.count t := by
  rcases s with _ | _ | _ | _ | _ | _ <;> cases t <;> rfl

theorem count_writeAll (xs : List Write) (t : Series) : (w.writeAll xs).count t = w.count t := by
  induction xs generalizing w with
  | nil => rfl
  | cons x xs ih =>
    obtain ⟨k, v⟩ := x
    rw [writeAll_cons, ih]
    cases k <;> cases t <;> rfl

end Workspace

end DotBuilder
