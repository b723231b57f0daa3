import DotBuilder.OrdMap.Lemmas
import DotBuilder.Proofs.Records

/-!
# What commands do to the nodes and edges that graphs list

Five commands change which nodes and edges a graph lists: making the graph, adding a node of either
sort, adding an edge, and removing a node.  `Effect.lists` says so, and the lemmas before it say
what becomes of the lists.

* `Graph.node?_eq_none_iff` : a name leads to a node if a node of either sort is listed under it;
* `node?_placePlain`, `node?_placeHtml`, `node?_removeNode` : which node a name leads to afterwards;
* `mem_edges_removeNode_iff` : which edges a removal by force leaves;
* `resolve_named`, `node?_connected` : an edge between two names replaces no node.
-/

namespace DotBuilder

theorem Graph.node?_eq_none_iff {r : Graph} {x : String} : r.node? x = none ↔ x ∉ r.nodeNames := by
  unfold node? nodeNames
  rw [List.mem_append, not_or, ← OrdMap.get?_eq_none_iff, ← OrdMap.get?_eq_none_iff]
  cases r.nodes.get? x <;> simp

theorem Graph.mem_nodeNames_iff {r : Graph} {x : String} :
    x ∈ r.nodeNames ↔ ∃ n, r.node? x = some n := by
  rw [← Option.ne_none_iff_exists', ne_eq, node?_eq_none_iff, Decidable.not_not]

namespace Workspace

variable {w w' : Workspace} {g h : GraphId} {e : EdgeId} {x y k : String}

/-! ## Nodes -/

theorem node?_placePlain (attributes : AttrSet) :
    ((w.placePlain g x attributes).1.graph h).node? y =
      if h = g ∧ y = x then some (.plain (w.placePlain g x attributes).2)
      else (w.graph h).node? y := by
  rw [graph_placePlain]
  by_cases hh : h = g
  · subst hh
    by_cases hy : y = x
    · subst hy
      simp [Graph.node?, OrdMap.get?_insert, Workspace.placePlain]
    · have hxy : ¬ x = y := fun e => hy e.symm
      simp [Graph.node?, OrdMap.get?_insert, hy, hxy]
  · simp [hh]

theorem node?_placeHtml (attributes : AttrSet) :
    ((w.placeHtml g x attributes).1.graph h).node? y =
      if h = g ∧ y = x ∧ (w.graph g).nodes.get? x = none then
        some (.html (w.placeHtml g x attributes).2)
      else (w.graph h).node? y := by
  rw [graph_placeHtml]
  by_cases hh : h = g
  · subst hh
    by_cases hy : y = x
    · subst hy
      cases hp : (w.graph h).nodes.get? y <;>
        simp [Graph.node?, OrdMap.get?_insert, hp, Workspace.placeHtml]
    · have hxy : ¬ x = y := fun e => hy e.symm
      simp [Graph.node?, OrdMap.get?_insert, hy, hxy]
  · simp [hh]

theorem mem_nodeNames_placeHtml (attributes : AttrSet) :
    x ∈ ((w.placeHtml g x attributes).1.graph g).nodeNames := by
  rw [graph_placeHtml, if_pos rfl]
  refine List.mem_append_right _ ((OrdMap.mem_keys_iff _ _).2 ?_)
  exact ⟨_, (OrdMap.get?_insert _ x x _).trans (if_pos rfl)⟩

theorem node?_removeNode (force : Bool) :
    ((w.removeNode g x force).graph h).node? y =
      if h = g ∧ y = x then none else (w.graph h).node? y := by
  unfold Workspace.removeNode
  rw [graph_modifyGraph]
  by_cases hh : h = g
  · subst hh
    by_cases hy : y = x
    · subst hy
      simp [Graph.node?, OrdMap.get?_erase]
    · have hxy : ¬ x = y := fun e => hy e.symm
      simp [Graph.node?, OrdMap.get?_erase, hy, hxy]
  · simp [hh]

theorem node?_placeEdge (source target : NodeId) (attributes : AttrSet) :
    ((w.placeEdge g source target attributes).1.graph h).node? y = (w.graph h).node? y := by
  rw [graph_placeEdge]
  by_cases hh : h = g
  · subst hh
    rw [if_pos rfl]
    rfl
  · rw [if_neg hh]

/-! ## Edges -/

theorem edges_placePlain (attributes : AttrSet) :
    ((w.placePlain g x attributes).1.graph h).edges = (w.graph h).edges := by
  rw [graph_placePlain]
  by_cases hh : h = g <;> simp [hh]

theorem edges_placeHtml (attributes : AttrSet) :
    ((w.placeHtml g x attributes).1.graph h).edges = (w.graph h).edges := by
  rw [graph_placeHtml]
  by_cases hh : h = g <;> simp [hh]

theorem edges_placeEdge (source target : NodeId) (attributes : AttrSet) :
    ((w.placeEdge g source target attributes).1.graph h).edges =
      if h = g then (w.graph g).edges ++ [(w.placeEdge g source target attributes).2]
      else (w.graph h).edges := by
  rw [graph_placeEdge]
  by_cases hh : h = g <;> simp [hh, Workspace.placeEdge]

theorem edges_removeNode (force : Bool) :
    ((w.removeNode g x force).graph h).edges =
      if h = g ∧ force = true then (w.graph g).edges.filter fun e => !w.touches x e
      else (w.graph h).edges := by
  unfold Workspace.removeNode
  rw [graph_modifyGraph]
  by_cases hh : h = g <;> cases force <;> simp [hh]

theorem touches_eq_false_iff : w.touches k e = false ↔ ∀ side, w.endName e side ≠ k := by
  unfold touches
  rw [Bool.or_eq_false_iff, decide_eq_false_iff_not, decide_eq_false_iff_not]
  constructor
  · rintro ⟨hs, ht⟩ side
    cases side with
    | source => exact hs
    | target => exact ht
  · exact fun h => ⟨h .source, h .target⟩

/-- A removal by force leaves the edges without an end of the name. -/
theorem mem_edges_removeNode_iff : e ∈ ((w.removeNode g k true).graph g).edges ↔
    e ∈ (w.graph g).edges ∧ ∀ side, w.endName e side ≠ k := by
  rw [edges_removeNode, if_pos ⟨rfl, rfl⟩, List.mem_filter, Bool.not_eq_true', touches_eq_false_iff]

/-! ## Ends given by names -/

/-- A name that leads to a node is resolved to it; another one gets a node first. -/
theorem resolve_named (w : Workspace) (g : GraphId) (x : String) :
    (∃ n, (w.graph g).node? x = some n ∧ w.resolve g (.named x) = (w, n)) ∨
      ∃ attributes, (w.graph g).node? x = none ∧ w.resolve g (.named x) =
        ((w.placePlain g x attributes).1, .plain (w.placePlain g x attributes).2) := by
  unfold Workspace.resolve
  cases hx : (w.graph g).node? x with
  | some n => exact .inl ⟨n, rfl, by simp only [hx]⟩
  | none => exact .inr ⟨w.blankNodeSet g false, rfl, by simp only [hx]⟩

theorem node?_resolve_self (w : Workspace) (g : GraphId) (x : String) :
    ((w.resolve g (.named x)).1.graph g).node? x = some (w.resolve g (.named x)).2 := by
  rcases w.resolve_named g x with ⟨n, hn, hr⟩ | ⟨attributes, -, hr⟩
  · rw [hr, hn]
  · rw [hr, node?_placePlain, if_pos ⟨rfl, rfl⟩]

/-- Resolving an end changes nothing for a name that leads to a node already. -/
theorem node?_resolve {r : NodeRef} {n : NodeId} (hn : (w.graph h).node? y = some n) :
    ((w.resolve g r).1.graph h).node? y = some n := by
  cases r with
  | given m => exact hn
  | named x =>
    rcases w.resolve_named g x with ⟨m, -, hr⟩ | ⟨attributes, hx, hr⟩
    · rw [hr, hn]
    · have hne : ¬ (h = g ∧ y = x) := by
        rintro ⟨rfl, rfl⟩
        rw [hx] at hn
        cases hn
      rw [hr, node?_placePlain, if_neg hne, hn]

theorem edges_resolve : ((w.resolve g (.named x)).1.graph h).edges = (w.graph h).edges := by
  rcases w.resolve_named g x with ⟨m, -, hr⟩ | ⟨attributes, -, hr⟩
  · rw [hr]
  · rw [hr, edges_placePlain]

theorem connected_eq (source target : NodeRef) (attributes : AttrSet) :
    w.connected g source target attributes =
      (((w.resolve g source).1.resolve g target).1.placeEdge g (w.resolve g source).2
        ((w.resolve g source).1.resolve g target).2 attributes).1 := rfl

/-- Adding an edge between two names changes nothing for a name that leads to a node already. -/
theorem node?_connected {source target : String} (attributes : AttrSet) {n : NodeId}
    (hn : (w.graph h).node? y = some n) :
    ((w.connected g (.named source) (.named target) attributes).graph h).node? y = some n := by
  rw [connected_eq, node?_placeEdge]
  exact node?_resolve (node?_resolve hn)

/-! ## All commands -/

/-- A name leads in each graph to the same node, and each graph lists the same edges. -/
structure SameLists (w w' : Workspace) : Prop where
  node? (g : GraphId) (x : String) : (w'.graph g).node? x = (w.graph g).node? x
  edges (g : GraphId) : (w'.graph g).edges = (w.graph g).edges

theorem SameLists.of_graphs (h : ∀ g, (w'.graph g).nodes = (w.graph g).nodes ∧
    (w'.graph g).htmlNodes = (w.graph g).htmlNodes ∧ (w'.graph g).edges = (w.graph g).edges) :
    SameLists w w' := by
  refine ⟨fun g x => ?_, fun g => (h g).2.2⟩
  unfold Graph.node?
  rw [(h g).1, (h g).2.1]

theorem SameLists.modifyGraph (w : Workspace) (g : GraphId) {f : Graph → Graph}
    (hn : (f (w.graph g)).nodes = (w.graph g).nodes)
    (hh : (f (w.graph g)).htmlNodes = (w.graph g).htmlNodes)
    (he : (f (w.graph g)).edges = (w.graph g).edges) : SameLists w (w.modifyGraph g f) := by
  refine .of_graphs fun h => ?_
  rw [graph_modifyGraph]
  by_cases hg : h = g <;> simp [hg, hn, hh, he]

/-- What a command can do to the nodes and edges that graphs list. -/
inductive ListChange (w : Workspace) : Command → Workspace → Prop where
  | same {c : Command} {w' : Workspace} (h : SameLists w w') : ListChange w c w'
  | newGraph (kind : Kind) (name : String) (strict : Bool) :
    ListChange w (.newGraph kind name strict) (w.newGraph kind name strict).1
  | addNode {g : GraphId} (name : String) {given : Attrs} (attributes : AttrSet)
    (hg : w.madeGraph g) :
    ListChange w (.addNode g name given) (w.placePlain g name attributes).1
  | addHtmlNode {g : GraphId} (name : String) {given : Attrs} (attributes : AttrSet)
    (hg : w.madeGraph g) :
    ListChange w (.addHtmlNode g name given) (w.placeHtml g name attributes).1
  | removeNode {g : GraphId} (name : String) (force : Bool) (hg : w.madeGraph g) :
    ListChange w (.removeNode g name force) (w.removeNode g name force)
  | addEdge {g : GraphId} {source target : NodeRef} {given : Attrs} (attributes : AttrSet)
    (hg : w.madeGraph g) :
    ListChange w (.addEdge g source target given) (w.connected g source target attributes)

theorem Effect.lists {c : Command} (h : w.Effect c w') : w.ListChange c w' := by
  cases h with
  | newGraph kind name strict => exact .newGraph kind name strict
  | addNode name hg => exact .addNode name _ hg
  | addHtmlNode name hg => exact .addHtmlNode name _ hg
  | removeNode name force hg => exact .removeNode name force hg
  | addEdge hg => exact .addEdge _ hg
  | attach => exact .same (.of_graphs fun g => by rw [graph_attached]; exact ⟨rfl, rfl, rfl⟩)
  | renameGraph | setGraphStrict => exact .same (.modifyGraph w _ rfl rfl rfl)
  | _ => exact .same (.of_graphs fun g => ⟨rfl, rfl, rfl⟩)

end Workspace

end DotBuilder
