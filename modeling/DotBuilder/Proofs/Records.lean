import DotBuilder.Proofs.Clusters.Family

/-!
# What is made stays made

Graphs, nodes and edges are numbered where they are made and are never made again, so a command
leaves those that were made before it: a node keeps its name, unless it is named anew, and an edge
keeps its two nodes.

* `Keeps` : all that was made in a workspace is there in another, too;
* `Effect.keeps` : every command but those that name nodes anew keeps all that was made before it.
-/

namespace DotBuilder.Workspace

variable {u v w w' : Workspace}

/-- The node at one end of an edge. -/
def endNode (w : Workspace) (e : EdgeId) (side : Side) : NodeId := ((w.edge e).endAt side).node

/-- The name of the node at one end of an edge. -/
def endName (w : Workspace) (e : EdgeId) (side : Side) : String := (w.node (w.endNode e side)).name

/-- No fewer things were made, nodes have the names and edges the nodes that they had. -/
structure Keeps (w w' : Workspace) : Prop where
  graphsMade : w.graphsMade ≤ w'.graphsMade
  plainMade : w.plainMade ≤ w'.plainMade
  htmlMade : w.htmlMade ≤ w'.htmlMade
  edgesMade : w.edgesMade ≤ w'.edgesMade
  madeIn (g : GraphId) (hg : w.madeGraph g) :
    (w.graph g).plainMade ≤ (w'.graph g).plainMade ∧
      (w.graph g).htmlMade ≤ (w'.graph g).htmlMade ∧
        (w.graph g).edgesMade ≤ (w'.graph g).edgesMade
  name (n : NodeId) (hn : w.madeNode n) : (w'.node n).name = (w.node n).name
  endNode (e : EdgeId) (he : w.madeEdge e) (side : Side) : w'.endNode e side = w.endNode e side

namespace Keeps

/-! ## Made things -/

theorem madeGraph (h : Keeps w w') {g : GraphId} (hg : w.madeGraph g) : w'.madeGraph g := by
  have hlt : g.serial < w.graphsMade := of_decide_eq_true hg
  have hle := h.graphsMade
  exact decide_eq_true (by omega)

theorem madeNode (h : Keeps w w') {n : NodeId} (hn : w.madeNode n) : w'.madeNode n := by
  rcases n with ⟨⟨g, serial⟩ | serial⟩ | ⟨⟨g, serial⟩ | serial⟩ <;>
    simp only [Workspace.madeNode, Bool.and_eq_true, decide_eq_true_eq] at hn ⊢
  · exact ⟨h.madeGraph hn.1, Nat.lt_of_lt_of_le hn.2 (h.madeIn g hn.1).1⟩
  · exact Nat.lt_of_lt_of_le hn h.plainMade
  · exact ⟨h.madeGraph hn.1, Nat.lt_of_lt_of_le hn.2 (h.madeIn g hn.1).2.1⟩
  · exact Nat.lt_of_lt_of_le hn h.htmlMade

theorem madeEdge (h : Keeps w w') {e : EdgeId} (he : w.madeEdge e) : w'.madeEdge e := by
  rcases e with ⟨⟨g, serial⟩ | serial⟩ <;>
    simp only [Workspace.madeEdge, Bool.and_eq_true, decide_eq_true_eq] at he ⊢
  · exact ⟨h.madeGraph he.1, Nat.lt_of_lt_of_le he.2 (h.madeIn g he.1).2.2⟩
  · exact Nat.lt_of_lt_of_le he h.edgesMade

theorem refl (w : Workspace) : Keeps w w where
  graphsMade := Nat.le_refl _
  plainMade := Nat.le_refl _
  htmlMade := Nat.le_refl _
  edgesMade := Nat.le_refl _
  madeIn _ _ := ⟨Nat.le_refl _, Nat.le_refl _, Nat.le_refl _⟩
  name _ _ := rfl
  endNode _ _ _ := rfl

theorem trans (h : Keeps u v) (h' : Keeps v w) : Keeps u w where
  graphsMade := Nat.le_trans h.graphsMade h'.graphsMade
  plainMade := Nat.le_trans h.plainMade h'.plainMade
  htmlMade := Nat.le_trans h.htmlMade h'.htmlMade
  edgesMade := Nat.le_trans h.edgesMade h'.edgesMade
  madeIn g hg :=
    have ⟨hp, hh, he⟩ := h.madeIn g hg
    have ⟨hp', hh', he'⟩ := h'.madeIn g (h.madeGraph hg)
    ⟨Nat.le_trans hp hp', Nat.le_trans hh hh', Nat.le_trans he he'⟩
  name n hn := (h'.name n (h.madeNode hn)).trans (h.name n hn)
  endNode e he side := (h'.endNode e (h.madeEdge he) side).trans (h.endNode e he side)

/-! ## Making and changing things -/

theorem node_of_set {n k : NodeId} {r : Node} (h : w'.nodes = w.nodes.set k r)
    (hk : w.madeNode k = false) (hn : w.madeNode n) : w'.node n = w.node n := by
  have hne : n ≠ k := by
    rintro rfl
    rw [hk] at hn
    cases hn
  rw [node, h, Registry.get_set_of_ne _ _ hne, node]

theorem edge_of_set {e k : EdgeId} {r : Edge} (h : w'.edges = w.edges.set k r)
    (hk : w.madeEdge k = false) (he : w.madeEdge e) : w'.edge e = w.edge e := by
  have hne : e ≠ k := by
    rintro rfl
    rw [hk] at he
    cases he
  rw [edge, h, Registry.get_set_of_ne _ _ hne, edge]

theorem newGraph (w : Workspace) (kind : Kind) (name : String) (strict : Bool) :
    Keeps w (w.newGraph kind name strict).1 :=
  { refl w with
    graphsMade := Nat.le_succ _
    madeIn := by
      intro g hg
      rw [graph_newGraph_of_made hg]
      exact (refl w).madeIn g hg }

theorem newPlain (w : Workspace) (name : String) (attributes : Option SetId) :
    Keeps w (w.newPlain name attributes).1 :=
  { refl w with
    plainMade := Nat.le_succ _
    name := fun _ hn => congrArg Node.name (node_of_set rfl (by simp [Workspace.madeNode]) hn) }

theorem newHtml (w : Workspace) (name : String) (attributes : Option SetId) :
    Keeps w (w.newHtml name attributes).1 :=
  { refl w with
    htmlMade := Nat.le_succ _
    name := fun _ hn => congrArg Node.name (node_of_set rfl (by simp [Workspace.madeNode]) hn) }

theorem newEdge (w : Workspace) (g : GraphId) (source target : NodeId) :
    Keeps w (w.newEdge g source target).1 :=
  { refl w with
    edgesMade := Nat.le_succ _
    endNode := fun _ he side => congrArg (fun r => (r.endAt side).node)
      (edge_of_set rfl (by simp [Workspace.madeEdge]) he) }

theorem placePlain (w : Workspace) (g : GraphId) (name : String) (attributes : AttrSet) :
    Keeps w (w.placePlain g name attributes).1 :=
  { refl w with
    madeIn := by
      intro h _
      rw [graph_placePlain]
      by_cases hh : h = g <;> simp [hh]
    name := fun _ hn => congrArg Node.name (node_of_set rfl (by simp [Workspace.madeNode]) hn) }

theorem placeHtml (w : Workspace) (g : GraphId) (name : String) (attributes : AttrSet) :
    Keeps w (w.placeHtml g name attributes).1 :=
  { refl w with
    madeIn := by
      intro h _
      rw [graph_placeHtml]
      by_cases hh : h = g <;> simp [hh]
    name := fun _ hn => congrArg Node.name (node_of_set rfl (by simp [Workspace.madeNode]) hn) }

theorem placeEdge (w : Workspace) (g : GraphId) (source target : NodeId) (attributes : AttrSet) :
    Keeps w (w.placeEdge g source target attributes).1 :=
  { refl w with
    madeIn := by
      intro h _
      rw [graph_placeEdge]
      by_cases hh : h = g <;> simp [hh]
    endNode := fun _ he side => congrArg (fun r => (r.endAt side).node)
      (edge_of_set rfl (by simp [Workspace.madeEdge]) he) }

theorem resolve (w : Workspace) (g : GraphId) (r : NodeRef) : Keeps w (w.resolve g r).1 := by
  cases r with
  | given n => exact refl w
  | named name =>
    unfold Workspace.resolve
    dsimp only
    split
    · exact refl w
    · exact placePlain w g name _

theorem connected (w : Workspace) (g : GraphId) (source target : NodeRef) (attributes : AttrSet) :
    Keeps w (w.connected g source target attributes) :=
  ((resolve w g source).trans (resolve _ g target)).trans (placeEdge _ g _ _ attributes)

/-- A change of one graph that leaves the numbers of the things made in it alone. -/
theorem modifyGraph (w : Workspace) (g : GraphId) {f : Graph → Graph}
    (hp : (f (w.graph g)).plainMade = (w.graph g).plainMade)
    (hh : (f (w.graph g)).htmlMade = (w.graph g).htmlMade)
    (he : (f (w.graph g)).edgesMade = (w.graph g).edgesMade) : Keeps w (w.modifyGraph g f) :=
  { refl w with
    madeIn := by
      intro h _
      rw [graph_modifyGraph]
      by_cases hg : h = g <;> simp [hg, hp, hh, he] }

theorem attached (w : Workspace) (parent child : GraphId) : Keeps w (w.attached parent child) := by
  have hdetach : Keeps w (w.detachOther parent child (w.graph child).name) := by
    unfold detachOther
    split
    · split
      · exact refl w
      · exact modifyGraph w _ rfl rfl rfl
    · exact refl w
  exact (hdetach.trans (modifyGraph _ parent rfl rfl rfl)).trans (modifyGraph _ child rfl rfl rfl)

theorem rerouted (w : Workspace) (e : EdgeId) (side : Side) (port : Port) :
    Keeps w (w.rerouted e side port) :=
  { refl w with
    endNode := by
      intro e' _ side'
      unfold Workspace.endNode Workspace.rerouted modifyPort edge
      rw [Registry.get_modify]
      by_cases he : e' = e
      · subst he
        rw [if_pos rfl]
        cases side <;> cases side' <;> rfl
      · rw [if_neg he] }

end Keeps

/-! ## Attribute sets -/

theorem attrSet_placePlain (g : GraphId) (name : String) (own : AttrSet) (s : SetId) :
    (w.placePlain g name own).1.attrSet s =
      if s = .node (.plain ⟨.graph g (w.graph g).plainMade⟩) then own else w.attrSet s := rfl

theorem attrSet_placeHtml (g : GraphId) (name : String) (own : AttrSet) (s : SetId) :
    (w.placeHtml g name own).1.attrSet s =
      if s = .node (.html ⟨.graph g (w.graph g).htmlMade⟩) then own else w.attrSet s := rfl

theorem attrSet_placeEdge (g : GraphId) (source target : NodeId) (own : AttrSet) (s : SetId) :
    (w.placeEdge g source target own).1.attrSet s =
      if s = .edge ⟨.graph g (w.graph g).edgesMade⟩ then own else w.attrSet s := rfl

theorem attrSet_modifySet (t : SetId) (f : AttrSet → AttrSet) (s : SetId) :
    (w.modifySet t f).attrSet s = if s = t then f (w.attrSet t) else w.attrSet s := rfl

theorem attrSet_attached (parent child : GraphId) (s : SetId) :
    (w.attached parent child).attrSet s = w.attrSet s := by
  rw [attached_eq_with_graphs]
  rfl

/-! ## New things -/

section New

variable {g : GraphId} (x : String) (attributes : AttrSet)

theorem madeNode_placePlain (hg : w.madeGraph g) :
    (w.placePlain g x attributes).1.madeNode (.plain (w.placePlain g x attributes).2) := by
  have hlt : g.serial < w.graphsMade := of_decide_eq_true hg
  simp [placePlain, madeNode, madeGraph, graph, Registry.get_set_self, hlt]

theorem name_placePlain :
    ((w.placePlain g x attributes).1.node (.plain (w.placePlain g x attributes).2)).name = x := by
  simp [placePlain, node, Registry.get_set_self]

theorem madeNode_placeHtml (hg : w.madeGraph g) :
    (w.placeHtml g x attributes).1.madeNode (.html (w.placeHtml g x attributes).2) := by
  have hlt : g.serial < w.graphsMade := of_decide_eq_true hg
  simp [placeHtml, madeNode, madeGraph, graph, Registry.get_set_self, hlt]

theorem name_placeHtml :
    ((w.placeHtml g x attributes).1.node (.html (w.placeHtml g x attributes).2)).name = x := by
  simp [placeHtml, node, Registry.get_set_self]

theorem madeEdge_placeEdge (source target : NodeId) (hg : w.madeGraph g) :
    (w.placeEdge g source target attributes).1.madeEdge
      (w.placeEdge g source target attributes).2 := by
  have hlt : g.serial < w.graphsMade := of_decide_eq_true hg
  simp [placeEdge, madeEdge, madeGraph, graph, Registry.get_set_self, hlt]

theorem endNode_placeEdge (source target : NodeId) (side : Side) :
    (w.placeEdge g source target attributes).1.endNode
      (w.placeEdge g source target attributes).2 side =
        match side with
        | .source => source
        | .target => target := by
  cases side <;> simp [placeEdge, endNode, edge, Registry.get_set_self, Edge.endAt]

end New

/-! ## All commands -/

/-- **Commands keep what was made before them**, but that nodes can be named anew. -/
theorem Effect.keeps {c : Command} (h : w.Effect c w')
    (hc : ∀ n name, c ≠ .renameNode n name) : Keeps w w' := by
  cases h with
  | refused | asked => exact .refl w
  | newGraph kind name strict => exact .newGraph w kind name strict
  | newNode name attributes => exact .newPlain w name attributes
  | newHtmlNode name attributes => exact .newHtml w name attributes
  | newEdge => exact .newEdge w _ _ _
  | addNode name => exact .placePlain w _ name _
  | addHtmlNode name => exact .placeHtml w _ name _
  | addEdge => exact .connected w _ _ _ _
  | attach => exact .attached w _ _
  | removeNode | renameGraph | setGraphStrict => exact .modifyGraph w _ rfl rfl rfl
  | setPort side name => exact .rerouted w _ side _
  | renameNode name => exact absurd rfl (hc _ name)
  | newSet | assign | assignDefaults | setStrict | addRow | setTable => exact { Keeps.refl w with }

end DotBuilder.Workspace
