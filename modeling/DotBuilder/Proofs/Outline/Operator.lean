import DotBuilder.Proofs.Cells.Owned
import DotBuilder.Proofs.Clusters.Descent

/-!
# The operator of a document

An edge is printed with the operator of the graph that it belongs to, and a document opens with the
keyword of the graph that is printed.  They agree at every depth.  A graph lists only edges that it
made, so an edge belongs to the graph that prints it; and a graph has the kind of each graph that
lists it as a cluster, however it was named anew, let go or attached again.  The graphs of the nodes
that an edge joins do not count.

* `edgeTextIn`, `sectionIn` : statements and sections as a document of a kind has them;
* `Listed.kind_of_mem_preorder` : all graphs of a tree have the kind of its root;
* `edges_follow_document` : the text of a graph is written for one kind throughout.
-/

namespace DotBuilder.Workspace

open Relation

variable {w : Workspace} {g : GraphId} {e : EdgeId} {kind : Kind}

/-! ## Documents of a kind -/

/-- The statement of an edge in a document of a kind. -/
def edgeTextIn (w : Workspace) (kind : Kind) (e : EdgeId) : String :=
  let r := w.edge e
  let operator :=
    match kind with
    | .undirected => "--"
    | .directed => "->"
  w.endText r.source ++ " " ++ operator ++ " " ++ w.endText r.target ++ (w.attrSet (.edge e)).text

/-- The section of a graph in a document of a kind.  A graph without a parent opens its section as
a document, also where it is printed inside of another graph. -/
def sectionIn (w : Workspace) (kind : Kind) (g : GraphId) : Section where
  form := if (w.graph g).parent = none then .document kind else .subgraph
  name := (w.graph g).name
  defaults := w.defaultsOf g
  statements := (w.graph g).allNodes.map w.nodeText ++ (w.graph g).edges.map (w.edgeTextIn kind)

theorem edgeText_eq_edgeTextIn (h : (w.graph (w.edge e).graph).kind = kind) :
    w.edgeText e = w.edgeTextIn kind e := by
  simp only [edgeText, edgeTextIn, h]
  cases kind <;> rfl

theorem formOf_eq_ite (h : (w.graph g).kind = kind) :
    w.formOf g = if (w.graph g).parent = none then .document kind else .subgraph := by
  subst h
  unfold formOf
  cases (w.graph g).parent <;> rfl

theorem sectionOf_eq_sectionIn (hkind : (w.graph g).kind = kind)
    (hedges : ∀ e ∈ (w.graph g).edges, w.edgeText e = w.edgeTextIn kind e) :
    w.sectionOf g = w.sectionIn kind g := by
  have hstatements : w.statementsOf g =
      (w.graph g).allNodes.map w.nodeText ++ (w.graph g).edges.map (w.edgeTextIn kind) := by
    rw [statementsOf, List.map_congr_left hedges]
  rw [sectionOf, sectionIn, formOf_eq_ite hkind, hstatements]

/-! ## What a tree has in common -/

/-- The kind goes down from a graph to all that it leads to. -/
theorem Listed.kind_of_reaches (hw : Listed w) {a r : GraphId}
    (h : ReflTransGen (fun x y => x ∈ w.clusterList y) a r) :
    (w.graph a).kind = (w.graph r).kind := by
  induction h with
  | refl => rfl
  | tail _ hlisted ih => exact ih.trans (hw.kind hlisted)

theorem Listed.kind_of_mem_preorder (hw : Listed w) {t : Tree GraphId}
    (ht : t.Unfolds w.clusterList) (hg : g ∈ t.preorder) :
    (w.graph g).kind = (w.graph t.root).kind :=
  hw.kind_of_reaches ((Tree.mem_preorder_iff ht).1 hg)

/-- An edge belongs to the graph that lists it. -/
theorem Owned.graph_of_mem_edges (hw : Owned w) (he : e ∈ (w.graph g).edges) :
    (w.edge e).graph = g := by
  obtain ⟨hhome, hmade⟩ := hw.edge_of_mem he
  obtain ⟨-, -, -, hgraph⟩ := hw (.ends e) hmade
  exact hgraph g hhome

/-- **A document has one operator, that of its keyword.**  After every list of commands, for every
graph from which going down comes to an end, each edge of each graph that is printed belongs to the
graph that lists it and is printed with the operator of the kind of the graph at the root; and the
text is the one that is written for this kind throughout, keywords included. -/
theorem edges_follow_document {cs : List Command} {t : Tree GraphId}
    (hroot : (empty.run cs).1.madeGraph t.root = true)
    (ht : t.Unfolds (empty.run cs).1.clusterList) :
    let w := (empty.run cs).1
    let kind := (w.graph t.root).kind
    w.dotText t.root = .ok (Outline.text (t.map (w.sectionIn kind))) ∧
    ∀ g ∈ t.preorder, (w.graph g).kind = kind ∧
      ∀ e ∈ (w.graph g).edges, (w.edge e).graph = g ∧ w.edgeText e = w.edgeTextIn kind e := by
  intro w kind
  have hw : Built w := built_run cs
  have hkind : ∀ g ∈ t.preorder, (w.graph g).kind = kind := fun g hg =>
    hw.kind_of_mem_preorder ht hg
  have hedges : ∀ g ∈ t.preorder, ∀ e ∈ (w.graph g).edges,
      (w.edge e).graph = g ∧ w.edgeText e = w.edgeTextIn kind e := by
    intro g hg e he
    have hgraph : (w.edge e).graph = g := hw.owned.graph_of_mem_edges he
    refine ⟨hgraph, edgeText_eq_edgeTextIn ?_⟩
    rw [hgraph]
    exact hkind g hg
  refine ⟨?_, fun g hg => ⟨hkind g hg, hedges g hg⟩⟩
  have hsections : t.map w.sectionOf = t.map (w.sectionIn kind) := by
    refine Tree.map_congr fun g hg => ?_
    exact sectionOf_eq_sectionIn (hkind g hg) fun e he => (hedges g hg e he).2
  rw [dotText, outline?, hw.clusterTree?_of_unfolds hroot ht, Option.map_some, hsections]

/-- A cluster that was attached under two names lost its place under one of them, so it has no
parent and opens a document of its own inside of the other.  One of its edges ends at a node of an
undirected graph. -/
theorem edges_follow_document_detached :
    let cs : List Command :=
      [.newGraph .directed "g" false, .newGraph .directed "a" false, .newGraph .directed "a" false,
        .newGraph .undirected "u" false, .addNode ⟨3⟩ "x" .empty, .attach ⟨0⟩ ⟨1⟩,
        .renameGraph ⟨1⟩ "b", .attach ⟨0⟩ ⟨1⟩, .attach ⟨0⟩ ⟨2⟩,
        .addEdge ⟨1⟩ (.given (.plain ⟨.graph ⟨3⟩ 0⟩)) (.named "y") .empty]
    let w := (empty.run cs).1
    let t : Tree GraphId := ⟨⟨0⟩, .cons ⟨2⟩ .nil (.cons ⟨1⟩ .nil .nil)⟩
    let e : EdgeId := ⟨.graph ⟨1⟩ 0⟩
    (w.madeGraph t.root = true ∧ t.Unfolds w.clusterList) ∧
      w.dotText ⟨0⟩ = .ok (Outline.text (t.map (w.sectionIn .directed))) ∧
      (w.graph ⟨1⟩).parent = none ∧ (w.edge e).graph = ⟨1⟩ ∧ w.edgeText e = "\"x\" -> \"y\"" := by
  intro cs w t e
  have hroot : w.madeGraph t.root = true := rfl
  have ht : t.Unfolds w.clusterList := ⟨rfl, ⟨rfl, trivial, rfl, trivial, trivial⟩⟩
  obtain ⟨hdot, hedges⟩ := edges_follow_document hroot ht
  have he : e ∈ (w.graph ⟨1⟩).edges := by decide +kernel
  obtain ⟨-, hgraph, htext⟩ := (hedges ⟨1⟩ (by decide)).imp_right fun h => h e he
  refine ⟨⟨hroot, ht⟩, hdot, rfl, hgraph, htext.trans ?_⟩
  decide +kernel

end DotBuilder.Workspace
