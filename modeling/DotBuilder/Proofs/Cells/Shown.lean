import DotBuilder.Proofs.Cells.Relabel
import DotBuilder.Proofs.Lint.Noted

/-!
# What texts and lint show

The text of a graph and what lint finds on it come from the cells of the graph itself, of the nodes
and edges that it lists and of the nodes that its edges end at.  Identifiers are not shown: where
these cells match, the text and the findings are the same.

* `Shows` : the cells that a graph shows, its clusters aside;
* `sectionOf_congr`, `lintGraph_congr` : where they match, the section and the findings are the
  same;
* `Listed.dotText_congr`, `Listed.lint_congr` : and so are the text and the lint of a tree of
  graphs.
-/

namespace DotBuilder

/-! ## Forests -/

namespace Forest

variable {α β : Type} {lists : α → List α} {lists' : β → List β} {f : α → β}

theorem roots_map (F : Forest α) : (F.map f).roots = F.roots.map f := by
  induction F with
  | nil => rfl
  | cons root below rest _ ih => rw [map, roots, roots, List.map_cons, ih]

theorem map_map {γ : Type} (h : β → γ) (F : Forest α) :
    (F.map f).map h = F.map fun a => h (f a) := by
  induction F with
  | nil => rfl
  | cons root below rest ihb ihr => rw [map, map, map, ihb, ihr]

theorem Unfolds.map {F : Forest α} (hF : F.Unfolds lists)
    (hf : ∀ a ∈ F.preorder, lists' (f a) = (lists a).map f) : (F.map f).Unfolds lists' := by
  induction F with
  | nil => trivial
  | cons root below rest ihb ihr =>
    obtain ⟨hroot, hbelow, hrest⟩ := forall_mem_preorder_cons.1 hf
    refine ⟨?_, ihb hF.2.1 hbelow, ihr hF.2.2 hrest⟩
    rw [roots_map, hF.1, hroot]

end Forest

theorem Tree.Unfolds.map {α β : Type} {lists : α → List α} {lists' : β → List β} {f : α → β}
    {t : Tree α} (ht : t.Unfolds lists)
    (hf : ∀ a ∈ t.preorder, lists' (f a) = (lists a).map f) : (t.map f).Unfolds lists' := by
  obtain ⟨hroot, hbelow⟩ := List.forall_mem_cons.1 hf
  refine ⟨?_, ht.2.map hbelow⟩
  rw [Tree.map, Forest.roots_map, ht.1, hroot]

namespace Workspace

variable {σ : Relabel} {w v : Workspace} {g : GraphId}

/-! ## Cells of a graph -/

/-- The cells that a graph shows, its clusters aside. -/
def Shows (w : Workspace) (g : GraphId) : Cell → Prop
  | .head h => h = g ∨ ∃ e ∈ (w.graph g).edges, (w.edge e).graph = h
  | .parent h | .clusters h | .plainNodes h | .htmlNodes h | .edges h => h = g
  | .node n => n ∈ (w.graph g).allNodes ∨
      ∃ e ∈ (w.graph g).edges, ∃ side, ((w.edge e).endAt side).node = n
  | .table h => .html h ∈ (w.graph g).allNodes
  | .ends e | .port e _ => e ∈ (w.graph g).edges
  | .rules _ => False
  | .entries s => ∃ c, (c, s) ∈ w.heldSets g

theorem shows_defaults (w : Workspace) (g : GraphId) (scope : Scope) :
    w.Shows g (.entries (.defaults g scope)) := by
  cases scope with
  | graph => exact ⟨w.graphContext g, by simp [heldSets]⟩
  | node => exact ⟨.node, by simp [heldSets]⟩
  | edge => exact ⟨.edge, by simp [heldSets]⟩

theorem shows_attributes {n : NodeId} (hn : n ∈ (w.graph g).allNodes) :
    w.Shows g (.entries (w.node n).attributes) :=
  ⟨.node, List.mem_append_right _ (List.mem_append_left _
    (List.mem_map_of_mem (f := fun n => (Context.node, (w.node n).attributes)) hn))⟩

theorem shows_edgeSet {e : EdgeId} (he : e ∈ (w.graph g).edges) :
    w.Shows g (.entries (.edge e)) :=
  ⟨.edge, List.mem_append_right _ (List.mem_append_right _
    (List.mem_map_of_mem (f := fun e => (Context.edge, SetId.edge e)) he))⟩

namespace Owned

/-- The sets that are looked at for a graph are its own and those of its nodes and edges. -/
theorem set_of_mem_heldSets (hw : Owned w) {s : SetId} (h : ∃ c, (c, s) ∈ w.heldSets g) :
    (∃ scope, s = .defaults g scope) ∨ (∃ n ∈ (w.graph g).allNodes, s = .node n) ∨
      ∃ e ∈ (w.graph g).edges, s = .edge e := by
  obtain ⟨c, h⟩ := h
  simp only [heldSets, List.mem_append, List.mem_cons, List.not_mem_nil, or_false, List.mem_map,
    Prod.mk.injEq] at h
  rcases h with (⟨-, rfl⟩ | ⟨-, rfl⟩ | ⟨-, rfl⟩) | ⟨n, hn, -, rfl⟩ | ⟨e, he, -, rfl⟩
  · exact .inl ⟨.graph, rfl⟩
  · exact .inl ⟨.node, rfl⟩
  · exact .inl ⟨.edge, rfl⟩
  · obtain ⟨hhome, hmade⟩ := hw.node_of_mem hn
    exact .inr (.inl ⟨n, hn, hw.attributes_eq hmade hhome⟩)
  · exact .inr (.inr ⟨e, he, rfl⟩)

/-- What is shown was made. -/
theorem made_of_shows (hw : Owned w) (hg : w.madeGraph g = true) {k : Cell} (hk : w.Shows g k) :
    w.made k.owner = true := by
  cases k with
  | head h =>
    rcases hk with rfl | ⟨e, he, rfl⟩
    · exact hg
    · exact (hw (.ends e) (hw.edge_of_mem he).2).1
  | parent h | clusters h | plainNodes h | htmlNodes h | edges h =>
    cases hk
    exact hg
  | node n =>
    rcases hk with hn | ⟨e, he, side, rfl⟩
    · exact (hw.node_of_mem hn).2
    · obtain ⟨-, hs, ht, -⟩ := hw (.ends e) (hw.edge_of_mem he).2
      cases side with
      | source => exact hs
      | target => exact ht
  | table h => exact (hw.node_of_mem hk).2
  | ends e | port e side => exact (hw.edge_of_mem hk).2
  | rules s => cases hk
  | entries s =>
    rcases hw.set_of_mem_heldSets hk with ⟨scope, rfl⟩ | ⟨n, hn, rfl⟩ | ⟨e, he, rfl⟩
    · exact hg
    · exact (hw.node_of_mem hn).2
    · exact (hw.edge_of_mem he).2

end Owned

/-! ## Records that match -/

namespace Matches

theorem kind_eq (h : Matches σ (.head g) w v) : (v.graph (σ • g)).kind = (w.graph g).kind :=
  congrArg Prod.fst h

theorem name_eq (h : Matches σ (.head g) w v) : (v.graph (σ • g)).name = (w.graph g).name :=
  congrArg (fun r => r.2.1) h

theorem strict_eq (h : Matches σ (.head g) w v) :
    (v.graph (σ • g)).strict = (w.graph g).strict :=
  congrArg (fun r => r.2.2) h

theorem parent_eq (h : Matches σ (.parent g) w v) :
    (v.graph (σ • g)).parent = (w.graph g).parent.map fun p => σ • p :=
  h

theorem clusters_eq (h : Matches σ (.clusters g) w v) :
    (v.graph (σ • g)).clusters = (w.graph g).clusters.map fun c => σ • c :=
  h

theorem nodes_eq (h : Matches σ (.plainNodes g) w v) :
    (v.graph (σ • g)).nodes = (w.graph g).nodes.map fun p => σ • p :=
  congrArg Prod.fst h

theorem plainMade_eq (h : Matches σ (.plainNodes g) w v) :
    (v.graph (σ • g)).plainMade = (w.graph g).plainMade :=
  congrArg Prod.snd h

theorem htmlNodes_eq (h : Matches σ (.htmlNodes g) w v) :
    (v.graph (σ • g)).htmlNodes = (w.graph g).htmlNodes.map fun p => σ • p :=
  congrArg Prod.fst h

theorem htmlMade_eq (h : Matches σ (.htmlNodes g) w v) :
    (v.graph (σ • g)).htmlMade = (w.graph g).htmlMade :=
  congrArg Prod.snd h

theorem edges_eq (h : Matches σ (.edges g) w v) :
    (v.graph (σ • g)).edges = (w.graph g).edges.map fun e => σ • e :=
  congrArg Prod.fst h

theorem edgesMade_eq (h : Matches σ (.edges g) w v) :
    (v.graph (σ • g)).edgesMade = (w.graph g).edgesMade :=
  congrArg Prod.snd h

theorem node_eq {n : NodeId} (h : Matches σ (.node n) w v) :
    v.node (σ • n) = ⟨(w.node n).name, σ • (w.node n).attributes⟩ :=
  h

theorem table_eq {n : HtmlId} (h : Matches σ (.table n) w v) : v.table (σ • n) = w.table n := h

theorem edgeGraph_eq {e : EdgeId} (h : Matches σ (.ends e) w v) :
    (v.edge (σ • e)).graph = σ • (w.edge e).graph :=
  congrArg Prod.fst h

theorem endNode_eq {e : EdgeId} (h : Matches σ (.ends e) w v) (side : Side) :
    ((v.edge (σ • e)).endAt side).node = σ • ((w.edge e).endAt side).node := by
  cases side with
  | source => exact congrArg (fun r => r.2.1) h
  | target => exact congrArg (fun r => r.2.2) h

theorem port_eq {e : EdgeId} {side : Side} (h : Matches σ (.port e side) w v) :
    ((v.edge (σ • e)).endAt side).port = ((w.edge e).endAt side).port :=
  h

theorem context_eq {s : SetId} (h : Matches σ (.rules s) w v) :
    (v.attrSet (σ • s)).context = (w.attrSet s).context :=
  congrArg Prod.fst h

theorem setStrict_eq {s : SetId} (h : Matches σ (.rules s) w v) :
    (v.attrSet (σ • s)).strict = (w.attrSet s).strict :=
  congrArg Prod.snd h

theorem html_eq {s : SetId} (h : Matches σ (.entries s) w v) :
    (v.attrSet (σ • s)).html = (w.attrSet s).html :=
  congrArg Prod.fst h

theorem entries_eq {s : SetId} (h : Matches σ (.entries s) w v) :
    (v.attrSet (σ • s)).entries = (w.attrSet s).entries :=
  congrArg Prod.snd h

theorem textWith_eq {s : SetId} (h : Matches σ (.entries s) w v) (extra : Attrs) :
    (v.attrSet (σ • s)).textWith extra = (w.attrSet s).textWith extra := by
  unfold AttrSet.textWith AttrSet.shown
  rw [h.html_eq, h.entries_eq]

theorem text_eq {s : SetId} (h : Matches σ (.entries s) w v) :
    (v.attrSet (σ • s)).text = (w.attrSet s).text :=
  h.textWith_eq .empty

theorem lintSet_eq {s : SetId} (h : Matches σ (.entries s) w v) (c : Context) :
    v.lintSet c (σ • s) = w.lintSet c s := by
  rw [lintSet, h.entries_eq, lintSet]

theorem endText_eq {e : EdgeId} {side : Side} (he : Matches σ (.ends e) w v)
    (hp : Matches σ (.port e side) w v)
    (hn : Matches σ (.node ((w.edge e).endAt side).node) w v) :
    v.endText ((v.edge (σ • e)).endAt side) = w.endText ((w.edge e).endAt side) := by
  rw [endText, he.endNode_eq, hp.port_eq, hn.node_eq, endText]

end Matches

/-! ## Graphs that match -/

section Congruence

variable (h : ∀ k, w.Shows g k → Matches σ k w v)

include h

theorem clusterList_congr : v.clusterList (σ • g) = (w.clusterList g).map fun c => σ • c := by
  have hc : Matches σ (.clusters g) w v := h _ rfl
  rw [clusterList, hc.clusters_eq, OrdMap.values_map, clusterList]

theorem allNodes_congr : (v.graph (σ • g)).allNodes = (w.graph g).allNodes.map fun n => σ • n := by
  have hp : Matches σ (.plainNodes g) w v := h _ rfl
  have hh : Matches σ (.htmlNodes g) w v := h _ rfl
  rw [Graph.allNodes, hp.nodes_eq, hh.htmlNodes_eq, OrdMap.values_map, OrdMap.values_map,
    Graph.allNodes, List.map_append, List.map_map, List.map_map, List.map_map, List.map_map]
  rfl

theorem edges_congr : (v.graph (σ • g)).edges = (w.graph g).edges.map fun e => σ • e :=
  (h (.edges g) rfl).edges_eq

theorem nodeNames_congr : (v.graph (σ • g)).nodeNames = (w.graph g).nodeNames := by
  have hp : Matches σ (.plainNodes g) w v := h _ rfl
  have hh : Matches σ (.htmlNodes g) w v := h _ rfl
  rw [Graph.nodeNames, hp.nodes_eq, hh.htmlNodes_eq, OrdMap.keys_map, OrdMap.keys_map,
    Graph.nodeNames]

theorem nodeText_congr {n : NodeId} (hn : n ∈ (w.graph g).allNodes) :
    v.nodeText (σ • n) = w.nodeText n := by
  have hrec : Matches σ (.node n) w v := h _ (.inl hn)
  have hset : Matches σ (.entries (w.node n).attributes) w v := h _ (shows_attributes hn)
  have hattrs : v.nodeAttributesText (σ • n) = w.nodeAttributesText n := by
    cases n with
    | plain p =>
      show (v.attrSet (v.node (σ • .plain p)).attributes).text = _
      rw [hrec.node_eq, hset.text_eq]
      rfl
    | html p =>
      have htable : Matches σ (.table p) w v := h _ hn
      show (v.attrSet (v.node (σ • .html p)).attributes).textWith (v.labelOf (σ • p)) = _
      rw [hrec.node_eq, hset.textWith_eq, labelOf, htable.table_eq]
      rfl
  rw [nodeText, hattrs, hrec.node_eq, nodeText]

theorem matches_end {e : EdgeId} (he : e ∈ (w.graph g).edges) (side : Side) :
    Matches σ (.node ((w.edge e).endAt side).node) w v :=
  h _ (.inr ⟨e, he, side, rfl⟩)

theorem edgeText_congr {e : EdgeId} (he : e ∈ (w.graph g).edges) :
    v.edgeText (σ • e) = w.edgeText e := by
  have hends : Matches σ (.ends e) w v := h _ he
  have hset : Matches σ (.entries (.edge e)) w v := h _ (shows_edgeSet he)
  have hkind : Matches σ (.head (w.edge e).graph) w v := h _ (.inr ⟨e, he, rfl⟩)
  have hend : ∀ side,
      v.endText ((v.edge (σ • e)).endAt side) = w.endText ((w.edge e).endAt side) := fun side =>
    hends.endText_eq (h (.port e side) he) (matches_end h he side)
  have hsource : v.endText (v.edge (σ • e)).source = w.endText (w.edge e).source := hend .source
  have htarget : v.endText (v.edge (σ • e)).target = w.endText (w.edge e).target := hend .target
  have htext : (v.attrSet (.edge (σ • e))).text = (w.attrSet (.edge e)).text := hset.text_eq
  rw [edgeText, hsource, htarget, hends.edgeGraph_eq, hkind.kind_eq, htext, edgeText]

theorem defaultsOf_congr : v.defaultsOf (σ • g) = w.defaultsOf g := by
  have htext : ∀ scope, (v.attrSet (.defaults (σ • g) scope)).text =
      (w.attrSet (.defaults g scope)).text := fun scope =>
    (h _ (shows_defaults w g scope)).text_eq
  unfold defaultsOf
  simp only [htext]

/-- **Where the cells of a graph match, its section is the same.** -/
theorem sectionOf_congr : v.sectionOf (σ • g) = w.sectionOf g := by
  have hhead : Matches σ (.head g) w v := h _ (.inl rfl)
  have hparent : Matches σ (.parent g) w v := h _ rfl
  have hform : v.formOf (σ • g) = w.formOf g := by
    rw [formOf, hparent.parent_eq, hhead.kind_eq, formOf]
    cases (w.graph g).parent <;> rfl
  have hstatements : v.statementsOf (σ • g) = w.statementsOf g := by
    rw [statementsOf, allNodes_congr h, edges_congr h, List.map_map, List.map_map, statementsOf]
    congr 1
    · exact List.map_congr_left fun n hn => nodeText_congr h hn
    · exact List.map_congr_left fun e he => edgeText_congr h he
  rw [sectionOf, hform, hhead.name_eq, defaultsOf_congr h, hstatements, sectionOf]

theorem lintEdge_congr (known : List String) {e : EdgeId} (he : e ∈ (w.graph g).edges) :
    v.lintEdge known (σ • e) = w.lintEdge known e := by
  have hends : Matches σ (.ends e) w v := h _ he
  have hset : v.lintSet .edge (.edge (σ • e)) = w.lintSet .edge (.edge e) :=
    (h _ (shows_edgeSet he)).lintSet_eq .edge
  have hend : ∀ side, v.lintEnd known ((v.edge (σ • e)).endAt side) =
      w.lintEnd known ((w.edge e).endAt side) := by
    intro side
    rw [lintEnd, hends.endNode_eq, (matches_end h he side).node_eq, lintEnd]
  have hsource : v.lintEnd known (v.edge (σ • e)).source = w.lintEnd known (w.edge e).source :=
    hend .source
  have htarget : v.lintEnd known (v.edge (σ • e)).target = w.lintEnd known (w.edge e).target :=
    hend .target
  rw [lintEdge, hset, hsource, htarget, lintEdge]

/-- **Where the cells of a graph match, lint finds the same on it.** -/
theorem lintGraph_congr (known : List String) :
    v.lintGraph known (σ • g) = w.lintGraph known g := by
  have hhead : Matches σ (.head g) w v := h _ (.inl rfl)
  have hparent : Matches σ (.parent g) w v := h _ rfl
  have hcontext : v.graphContext (σ • g) = w.graphContext g := by
    rw [graphContext, hparent.parent_eq, graphContext]
    cases (w.graph g).parent <;> rfl
  have hduplicates : v.duplicateNames (σ • g) = w.duplicateNames g := by
    have hp : Matches σ (.plainNodes g) w v := h _ rfl
    have hh : Matches σ (.htmlNodes g) w v := h _ rfl
    have hcontains : (v.graph (σ • g)).htmlNodes.contains = (w.graph g).htmlNodes.contains := by
      funext name
      rw [hh.htmlNodes_eq, OrdMap.contains, OrdMap.get?_map, Option.isSome_map, OrdMap.contains]
    rw [duplicateNames, hp.nodes_eq, OrdMap.keys_map, hcontains, duplicateNames]
  have hdefaults : ∀ c scope, v.lintSet c (.defaults (σ • g) scope) =
      w.lintSet c (.defaults g scope) := fun c scope =>
    (h _ (shows_defaults w g scope)).lintSet_eq c
  have hnodes : (v.graph (σ • g)).allNodes.map (fun n => v.lintSet .node (v.node n).attributes) =
      (w.graph g).allNodes.map fun n => w.lintSet .node (w.node n).attributes := by
    rw [allNodes_congr h, List.map_map]
    refine List.map_congr_left fun n hn => ?_
    have hrec : Matches σ (.node n) w v := h _ (.inl hn)
    show v.lintSet .node (v.node (σ • n)).attributes = _
    rw [hrec.node_eq, (h _ (shows_attributes hn)).lintSet_eq]
  have hedges : (v.graph (σ • g)).edges.map (v.lintEdge known) =
      (w.graph g).edges.map (w.lintEdge known) := by
    rw [edges_congr h, List.map_map]
    exact List.map_congr_left fun e he => lintEdge_congr h known he
  rw [lintGraph, hcontext, hduplicates, hhead.name_eq, hdefaults, hdefaults, hdefaults, hnodes,
    hedges, lintGraph]

end Congruence

/-! ## Trees of graphs that match -/

section Trees

variable {t : Tree GraphId} (h : ∀ a ∈ t.preorder, ∀ k, w.Shows a k → Matches σ k w v)

include h

/-- The same graphs stand below a graph, under other identifiers. -/
theorem Listed.clusterTree?_congr (hv : Listed v) (hroot : v.madeGraph (σ • t.root) = true)
    (ht : t.Unfolds w.clusterList) :
    v.clusterTree? (σ • t.root) = some (t.map fun a => σ • a) :=
  hv.clusterTree?_of_unfolds hroot (ht.map fun a ha => clusterList_congr (h a ha))

theorem outline_congr :
    (t.map fun a => σ • a).map v.sectionOf = t.map w.sectionOf := by
  have hsection : ∀ a ∈ t.preorder, v.sectionOf (σ • a) = w.sectionOf a := fun a ha =>
    sectionOf_congr (h a ha)
  obtain ⟨hroot, hbelow⟩ := List.forall_mem_cons.1 hsection
  unfold Tree.map
  rw [Forest.map_map, hroot, Forest.map_congr hbelow]

theorem lintTree_congr : v.lintTree (t.map fun a => σ • a) = w.lintTree t := by
  have hknown : v.knownNames (t.map fun a => σ • a).preorder = w.knownNames t.preorder := by
    rw [Tree.preorder_map, knownNames, List.flatMap_map, knownNames, List.flatMap_def,
      List.flatMap_def]
    exact congrArg List.flatten (List.map_congr_left fun a ha => nodeNames_congr (h a ha))
  rw [lintTree, hknown, Tree.preorder_map, List.map_map, lintTree]
  exact congrArg Report.concat (List.map_congr_left fun a ha => lintGraph_congr (h a ha) _)

/-- **Where the cells of a tree of graphs match, its text is the same.** -/
theorem Listed.dotText_congr (hv : Listed v) (hroot : v.madeGraph (σ • t.root) = true)
    (ht : w.clusterTree? t.root = some t) : v.dotText (σ • t.root) = w.dotText t.root := by
  have htree := hv.clusterTree?_congr h hroot (clusterTreeWithin?_unfolds ht).2
  rw [dotText, outline?, htree, Option.map_some, outline_congr h, dotText, outline?, ht]
  rfl

/-- **Where the cells of a tree of graphs match, lint finds the same.** -/
theorem Listed.lint_congr (hv : Listed v) (hroot : v.madeGraph (σ • t.root) = true)
    (ht : w.clusterTree? t.root = some t) : v.lint (σ • t.root) = w.lint t.root := by
  have htree := hv.clusterTree?_congr h hroot (clusterTreeWithin?_unfolds ht).2
  rw [lint, htree, lint, ht]
  exact congrArg Except.ok (lintTree_congr h)

end Trees

end Workspace

end DotBuilder
