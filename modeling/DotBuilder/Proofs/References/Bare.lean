import DotBuilder.Proofs.Accepted

/-!
# Nodes that come with an edge

The names at the ends of a new edge are looked up one after the other, and the second one in a graph
to which the first may have added a node.  Altogether the graph gets a plain node without attributes
for each name that it did not list, in the order of the ends, and once if both ends have this name.

* `missing`, `bareNodes`, `placeBare` : these names, their nodes, and the graph that gets them;
* `resolve_eq_placeBare`, `connected_eq_placeBare` : adding an edge comes down to this;
* `graph_placeBare`, `node_placeBare`, `attrSet_placeBare` : what it changes;
* `bare_of_mem_bareNodes` : the nodes are new and have no attributes.
-/

namespace DotBuilder

/-- The name by which an end of a new edge is given, if it is. -/
def NodeRef.names : NodeRef → List String
  | named name => [name]
  | given _ => []

namespace Workspace

variable {w : Workspace} {g h : GraphId} {x : String} {names : List String}

/-! ## Adding nodes without attributes -/

/-- The names at the ends of a new edge that lead to no node yet, each once, in the order of the
ends. -/
def missing (w : Workspace) (g : GraphId) (source target : NodeRef) : List String :=
  (source.names ++ target.names).eraseDups.filter fun x => decide (x ∉ (w.graph g).nodeNames)

/-- The plain nodes that a graph makes next, one for each name. -/
def bareNodes (w : Workspace) (g : GraphId) (names : List String) : List (String × PlainId) :=
  (names.zipIdx (w.graph g).plainMade).map fun e => (e.1, ⟨.graph g e.2⟩)

/-- Adds plain nodes without attributes to a graph. -/
def placeBare (w : Workspace) (g : GraphId) (names : List String) : Workspace :=
  names.foldl (fun v x => (v.placePlain g x (v.blankNodeSet g false)).1) w

theorem placeBare_append (xs ys : List String) :
    w.placeBare g (xs ++ ys) = (w.placeBare g xs).placeBare g ys :=
  List.foldl_append

theorem map_fst_bareNodes (w : Workspace) (g : GraphId) (names : List String) :
    (w.bareNodes g names).map Prod.fst = names := by
  rw [bareNodes, List.map_map]
  exact List.zipIdx_map_fst ..

theorem length_bareNodes (w : Workspace) (g : GraphId) (names : List String) :
    (w.bareNodes g names).length = names.length := by
  rw [bareNodes, List.length_map, List.length_zipIdx]

theorem plainMade_placePlain (own : AttrSet) :
    ((w.placePlain g x own).1.graph g).plainMade = (w.graph g).plainMade + 1 := by
  rw [graph_placePlain, if_pos rfl]

/-- The first node is numbered as the graph counts, and the others go on from there. -/
theorem bareNodes_cons (own : AttrSet) :
    w.bareNodes g (x :: names) =
      (x, ⟨.graph g (w.graph g).plainMade⟩) :: (w.placePlain g x own).1.bareNodes g names := by
  rw [bareNodes, bareNodes, plainMade_placePlain]
  rfl

/-- The nodes that a graph makes next were not made yet. -/
theorem madeNode_of_mem_bareNodes {e : String × PlainId} (he : e ∈ w.bareNodes g names) :
    w.madeNode (.plain e.2) = false := by
  unfold bareNodes at he
  obtain ⟨⟨y, i⟩, hi, rfl⟩ := List.mem_map.1 he
  have hle : (w.graph g).plainMade ≤ i := List.le_snd_of_mem_zipIdx hi
  simp [madeNode, Nat.not_lt.2 hle]

/-! ## What this changes -/

/-- The graph lists the nodes, and its count goes up; nothing else changes in any graph. -/
theorem graph_placeBare (w : Workspace) (g h : GraphId) (names : List String) :
    (w.placeBare g names).graph h =
      if h = g then
        { w.graph g with
          nodes := (w.graph g).nodes.insertList (w.bareNodes g names)
          plainMade := (w.graph g).plainMade + names.length }
      else w.graph h := by
  induction names generalizing w with
  | nil =>
    by_cases hh : h = g
    · subst hh
      rw [if_pos rfl]
      rfl
    · rw [if_neg hh]
      rfl
  | cons x names ih =>
    have hstep : w.placeBare g (x :: names) =
        (w.placePlain g x (w.blankNodeSet g false)).1.placeBare g names := rfl
    rw [hstep, ih, bareNodes_cons (w.blankNodeSet g false)]
    by_cases hh : h = g
    · rw [if_pos hh, if_pos hh, graph_placePlain, if_pos rfl, List.length_cons,
        Nat.add_right_comm, Nat.add_assoc]
      rfl
    · rw [if_neg hh, if_neg hh, graph_placePlain, if_neg hh]

/-- Other nodes stay as they are. -/
theorem node_placeBare {n : NodeId} (hn : ∀ e ∈ w.bareNodes g names, n ≠ .plain e.2) :
    (w.placeBare g names).node n = w.node n := by
  induction names generalizing w with
  | nil => rfl
  | cons x names ih =>
    rw [bareNodes_cons (w.blankNodeSet g false), List.forall_mem_cons] at hn
    have hrest : (w.placeBare g (x :: names)).node n =
        (w.placePlain g x (w.blankNodeSet g false)).1.node n := ih hn.2
    rw [hrest]
    exact Registry.get_set_of_ne _ _ hn.1

/-- Other attribute sets stay as they are. -/
theorem attrSet_placeBare {s : SetId} (hs : ∀ e ∈ w.bareNodes g names, s ≠ .node (.plain e.2)) :
    (w.placeBare g names).attrSet s = w.attrSet s := by
  induction names generalizing w with
  | nil => rfl
  | cons x names ih =>
    rw [bareNodes_cons (w.blankNodeSet g false), List.forall_mem_cons] at hs
    have hrest : (w.placeBare g (x :: names)).attrSet s =
        (w.placePlain g x (w.blankNodeSet g false)).1.attrSet s := ih hs.2
    rw [hrest, attrSet_placePlain, if_neg hs.1]

/-- **The nodes have the names, and no attributes.**  Each has a set of its own, which is as strict
as the graph says. -/
theorem bare_of_mem_bareNodes {e : String × PlainId} (he : e ∈ w.bareNodes g names) :
    (w.placeBare g names).node (.plain e.2) = ⟨e.1, .node (.plain e.2)⟩ ∧
      (w.placeBare g names).attrSet (.node (.plain e.2)) = w.blankNodeSet g false := by
  induction names generalizing w with
  | nil => cases he
  | cons x names ih =>
    rw [bareNodes_cons (w.blankNodeSet g false), List.mem_cons] at he
    have hblank : (w.placePlain g x (w.blankNodeSet g false)).1.blankNodeSet g false =
        w.blankNodeSet g false := by
      rw [blankNodeSet, graph_placePlain, if_pos rfl]
      rfl
    rcases he with rfl | he
    · -- the later nodes are other ones, since this one is made by then
      have hother : ∀ f ∈ (w.placePlain g x (w.blankNodeSet g false)).1.bareNodes g names,
          (⟨.graph g (w.graph g).plainMade⟩ : PlainId) ≠ f.2 := by
        intro f hf hp
        unfold bareNodes at hf
        obtain ⟨⟨y, i⟩, hi, rfl⟩ := List.mem_map.1 hf
        have hle := List.le_snd_of_mem_zipIdx hi
        rw [plainMade_placePlain] at hle
        cases hp
        exact Nat.not_succ_le_self _ hle
      have hnode := node_placeBare (w := (w.placePlain g x (w.blankNodeSet g false)).1)
        fun f hf h => hother f hf (NodeId.plain.inj h)
      have hset := attrSet_placeBare (w := (w.placePlain g x (w.blankNodeSet g false)).1)
        fun f hf h => hother f hf (NodeId.plain.inj (SetId.node.inj h))
      refine ⟨hnode.trans (Registry.get_set_self ..), hset.trans ?_⟩
      rw [attrSet_placePlain, if_pos rfl]
    · have hrest := ih he
      rw [hblank] at hrest
      exact hrest

theorem edges_placeBare : (w.placeBare g names).edges = w.edges := by
  induction names generalizing w with
  | nil => rfl
  | cons x names ih => exact ih (w := (w.placePlain g x (w.blankNodeSet g false)).1)

theorem tables_placeBare : (w.placeBare g names).tables = w.tables := by
  induction names generalizing w with
  | nil => rfl
  | cons x names ih => exact ih (w := (w.placePlain g x (w.blankNodeSet g false)).1)

/-! ## Adding an edge -/

theorem mem_nodeNames_placeBare :
    x ∈ ((w.placeBare g names).graph g).nodeNames ↔ x ∈ (w.graph g).nodeNames ∨ x ∈ names := by
  rw [graph_placeBare, if_pos rfl]
  unfold Graph.nodeNames
  rw [List.mem_append, OrdMap.mem_keys_insertList, map_fst_bareNodes, List.mem_append]
  exact or_right_comm

/-- To resolve an end adds a node for its name if it has one that is not listed. -/
theorem resolve_eq_placeBare (w : Workspace) (g : GraphId) (r : NodeRef) :
    (w.resolve g r).1 =
      w.placeBare g (r.names.filter fun x => decide (x ∉ (w.graph g).nodeNames)) := by
  cases r with
  | given n => rfl
  | named x =>
    unfold resolve NodeRef.names
    cases hx : (w.graph g).node? x with
    | some n =>
      have hmem : ¬ x ∉ (w.graph g).nodeNames := not_not_intro (Graph.mem_nodeNames_iff.2 ⟨n, hx⟩)
      rw [List.filter_cons_of_neg (by simpa using hmem)]
      simp only [hx]
      rfl
    | none =>
      have hmem : x ∉ (w.graph g).nodeNames := Graph.node?_eq_none_iff.1 hx
      rw [List.filter_cons_of_pos (by simpa using hmem)]
      simp only [hx]
      rfl

/-- **Adding an edge adds nodes for the missing names, and then the edge.** -/
theorem resolve_resolve_eq_placeBare (w : Workspace) (g : GraphId) (source target : NodeRef) :
    ((w.resolve g source).1.resolve g target).1 = w.placeBare g (w.missing g source target) := by
  rw [resolve_eq_placeBare _ g target, resolve_eq_placeBare w g source, ← placeBare_append]
  simp only [mem_nodeNames_placeBare]
  congr 1
  unfold missing
  cases source with
  | given n => cases target <;> simp [NodeRef.names, List.eraseDups_cons]
  | named x =>
    cases target with
    | given n => simp [NodeRef.names, List.eraseDups_cons]
    | named y =>
      by_cases hxy : y = x
      · subst hxy
        by_cases hy : y ∈ (w.graph g).nodeNames <;> simp [NodeRef.names, List.eraseDups_cons, hy]
      · by_cases hx : x ∈ (w.graph g).nodeNames <;>
          by_cases hy : y ∈ (w.graph g).nodeNames <;>
            simp [NodeRef.names, List.eraseDups_cons, hx, hy, hxy]

end Workspace

end DotBuilder
