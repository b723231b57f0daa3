import DotBuilder.Proofs.References.Listing

/-!
# Listed nodes and edges

A graph lists a node under the name that the node was made with, so that, as long as no node is
named anew, a name leads to a node of this name.  The edges of a graph and their nodes were made.

* `Bound` : both hold of all graphs;
* `Bound.connected` : also after an edge is added between two names, which then lead to its nodes;
* `bound_run` : also after all lists of commands that name no node anew.
-/

namespace DotBuilder.Workspace

variable {w w' : Workspace} {g h : GraphId} {e : EdgeId} {x y : String}

/-- Names lead to nodes that were made and have the name; edges and their nodes were made. -/
structure Bound (w : Workspace) : Prop where
  node {g : GraphId} {x : String} {n : NodeId} :
    (w.graph g).node? x = some n → w.madeNode n ∧ (w.node n).name = x
  edge {g : GraphId} {e : EdgeId} : e ∈ (w.graph g).edges →
    w.madeGraph g ∧ w.madeEdge e ∧ ∀ side, w.madeNode (w.endNode e side)

namespace Bound

theorem name_mem_nodeNames (hw : Bound w) {n : NodeId} (hn : (w.graph g).node? x = some n) :
    (w.node n).name ∈ (w.graph g).nodeNames := by
  rw [(hw.node hn).2]
  exact Graph.mem_nodeNames_iff.2 ⟨n, hn⟩

/-- What is listed in both of two workspaces is as it was, so it is enough to look at the rest. -/
theorem of_keeps (hw : Bound w) (hk : Keeps w w')
    (hnode : ∀ g x n, (w'.graph g).node? x = some n → (w.graph g).node? x ≠ some n →
      w'.madeNode n ∧ (w'.node n).name = x)
    (hedge : ∀ g e, e ∈ (w'.graph g).edges → e ∉ (w.graph g).edges →
      w'.madeGraph g ∧ w'.madeEdge e ∧ ∀ side, w'.madeNode (w'.endNode e side)) : Bound w' where
  node {g x n} hn := by
    by_cases hold : (w.graph g).node? x = some n
    · obtain ⟨hmade, hname⟩ := hw.node hold
      exact ⟨hk.madeNode hmade, (hk.name n hmade).trans hname⟩
    · exact hnode g x n hn hold
  edge {g e} he := by
    by_cases hold : e ∈ (w.graph g).edges
    · obtain ⟨hg, hmade, hends⟩ := hw.edge hold
      refine ⟨hk.madeGraph hg, hk.madeEdge hmade, fun side => ?_⟩
      rw [hk.endNode e hmade side]
      exact hk.madeNode (hends side)
    · exact hedge g e he hold

theorem of_sameLists (hw : Bound w) (hk : Keeps w w') (hs : SameLists w w') : Bound w' := by
  refine hw.of_keeps hk (fun g x n hn hold => ?_) (fun g e he hold => ?_)
  · exact absurd ((hs.node? g x).symm.trans hn) hold
  · rw [hs.edges] at he
    exact absurd he hold

theorem newGraph (hw : Bound w) (kind : Kind) (name : String) (strict : Bool) :
    Bound (w.newGraph kind name strict).1 := by
  refine hw.of_keeps (.newGraph w kind name strict) (fun g x n hn hold => ?_)
    (fun g e he hold => ?_)
  · rw [graph_newGraph] at hn
    by_cases hg : g = ⟨w.graphsMade⟩
    · rw [if_pos hg] at hn
      cases hn
    · rw [if_neg hg] at hn
      exact absurd hn hold
  · rw [graph_newGraph] at he
    by_cases hg : g = ⟨w.graphsMade⟩
    · rw [if_pos hg] at he
      cases he
    · rw [if_neg hg] at he
      exact absurd he hold

theorem placePlain (hw : Bound w) (hg : w.madeGraph g) (attributes : AttrSet) :
    Bound (w.placePlain g x attributes).1 := by
  refine hw.of_keeps (.placePlain w g x attributes) (fun h y n hn hold => ?_)
    (fun h e he hold => ?_)
  · rw [node?_placePlain] at hn
    by_cases hy : h = g ∧ y = x
    · rw [if_pos hy] at hn
      obtain ⟨-, rfl⟩ := hy
      cases hn
      exact ⟨madeNode_placePlain y attributes hg, name_placePlain y attributes⟩
    · rw [if_neg hy] at hn
      exact absurd hn hold
  · rw [edges_placePlain] at he
    exact absurd he hold

theorem placeHtml (hw : Bound w) (hg : w.madeGraph g) (attributes : AttrSet) :
    Bound (w.placeHtml g x attributes).1 := by
  refine hw.of_keeps (.placeHtml w g x attributes) (fun h y n hn hold => ?_)
    (fun h e he hold => ?_)
  · rw [node?_placeHtml] at hn
    by_cases hy : h = g ∧ y = x ∧ (w.graph g).nodes.get? x = none
    · rw [if_pos hy] at hn
      obtain ⟨-, rfl, -⟩ := hy
      cases hn
      exact ⟨madeNode_placeHtml y attributes hg, name_placeHtml y attributes⟩
    · rw [if_neg hy] at hn
      exact absurd hn hold
  · rw [edges_placeHtml] at he
    exact absurd he hold

theorem removeNode (hw : Bound w) (force : Bool) : Bound (w.removeNode g x force) := by
  refine hw.of_keeps (.modifyGraph w g rfl rfl rfl) (fun h y n hn hold => ?_)
    (fun h e he hold => ?_)
  · rw [node?_removeNode] at hn
    by_cases hy : h = g ∧ y = x
    · rw [if_pos hy] at hn
      cases hn
    · rw [if_neg hy] at hn
      exact absurd hn hold
  · rw [edges_removeNode] at he
    by_cases hf : h = g ∧ force = true
    · rw [if_pos hf] at he
      obtain ⟨rfl, -⟩ := hf
      exact absurd (List.mem_filter.1 he).1 hold
    · rw [if_neg hf] at he
      exact absurd he hold

theorem placeEdge (hw : Bound w) (hg : w.madeGraph g) {source target : NodeId}
    (hs : w.madeNode source) (ht : w.madeNode target) (attributes : AttrSet) :
    Bound (w.placeEdge g source target attributes).1 := by
  have hk : Keeps w (w.placeEdge g source target attributes).1 := .placeEdge w g _ _ attributes
  refine hw.of_keeps hk (fun h y n hn hold => ?_) (fun h e he hold => ?_)
  · rw [node?_placeEdge] at hn
    exact absurd hn hold
  · rw [edges_placeEdge] at he
    by_cases hh : h = g
    · subst hh
      rw [if_pos rfl] at he
      rcases List.mem_append.1 he with he | he
      · exact absurd he hold
      · cases List.mem_singleton.1 he
        refine ⟨hk.madeGraph hg, madeEdge_placeEdge attributes source target hg, fun side => ?_⟩
        rw [endNode_placeEdge]
        cases side
        · exact hk.madeNode hs
        · exact hk.madeNode ht
    · rw [if_neg hh] at he
      exact absurd he hold

theorem resolve (hw : Bound w) (hg : w.madeGraph g) : Bound (w.resolve g (.named x)).1 := by
  rcases w.resolve_named g x with ⟨n, -, hr⟩ | ⟨attributes, -, hr⟩
  · rw [hr]
    exact hw
  · rw [hr]
    exact hw.placePlain hg attributes

/-- An edge between two names joins the nodes that the names then lead to. -/
theorem connected (hw : Bound w) (hg : w.madeGraph g) {source target : String}
    (attributes : AttrSet) {w' : Workspace}
    (h' : w' = w.connected g (.named source) (.named target) attributes) :
    Bound w' ∧ ∃ e, (∀ h, (w'.graph h).edges =
        if h = g then (w.graph g).edges ++ [e] else (w.graph h).edges) ∧
      (w'.graph g).node? source = some (w'.endNode e .source) ∧
      (w'.graph g).node? target = some (w'.endNode e .target) := by
  -- Resolving the target does not change where the name of the source leads.
  let w₁ := (w.resolve g (.named source)).1
  let w₂ := (w₁.resolve g (.named target)).1
  let s := (w.resolve g (.named source)).2
  let t := (w₁.resolve g (.named target)).2
  have hg₁ : w₁.madeGraph g := (Keeps.resolve w g _).madeGraph hg
  have hg₂ : w₂.madeGraph g := (Keeps.resolve w₁ g _).madeGraph hg₁
  have hw₂ : Bound w₂ := (hw.resolve hg).resolve hg₁
  have hs : (w₂.graph g).node? source = some s := node?_resolve (node?_resolve_self w g source)
  have ht : (w₂.graph g).node? target = some t := node?_resolve_self w₁ g target
  have hedges : ∀ h, (w₂.graph h).edges = (w.graph h).edges := fun h =>
    edges_resolve.trans edges_resolve
  rw [connected_eq] at h'
  subst h'
  refine ⟨hw₂.placeEdge hg₂ (hw₂.node hs).1 (hw₂.node ht).1 attributes,
    (w₂.placeEdge g s t attributes).2, fun h => ?_, ?_, ?_⟩
  · rw [edges_placeEdge, hedges, hedges]
  · rw [node?_placeEdge, endNode_placeEdge, hs]
  · rw [node?_placeEdge, endNode_placeEdge, ht]

end Bound

/-! ## All commands -/

/-- No node is named anew, and edges are added between names only. -/
def KeepsNames (_ : Workspace) : Command → Prop
  | .renameNode .. => False
  | .addEdge _ source target _ => (∃ x, source = .named x) ∧ ∃ y, target = .named y
  | _ => True

theorem KeepsNames.keeps {c : Command} (hc : w.KeepsNames c) (h : w.Effect c w') : Keeps w w' :=
  h.keeps fun _ _ hn => by rw [hn] at hc; exact hc

theorem Bound.step (hw : Bound w) {c : Command} (hc : w.KeepsNames c) : Bound (w.step c).1 := by
  have hk : Keeps w (w.step c).1 := hc.keeps (w.step_effect c)
  have hl : w.ListChange c (w.step c).1 := (w.step_effect c).lists
  generalize (w.step c).1 = w' at hk hl
  cases hl with
  | same h => exact hw.of_sameLists hk h
  | newGraph kind name strict => exact hw.newGraph kind name strict
  | addNode name attributes hg => exact hw.placePlain hg attributes
  | addHtmlNode name attributes hg => exact hw.placeHtml hg attributes
  | removeNode name force => exact hw.removeNode force
  | addEdge attributes hg =>
    obtain ⟨⟨source, rfl⟩, target, rfl⟩ := hc
    exact (hw.connected hg attributes rfl).1

theorem bound_empty : Bound empty := by
  constructor
  · intro g x n h
    cases h
  · intro g e h
    cases h

theorem bound_run {cs : List Command} (h : empty.Obeys KeepsNames cs) : Bound (empty.run cs).1 :=
  run_invariant (fun _ _ hw hc => hw.step hc) bound_empty h

end DotBuilder.Workspace
