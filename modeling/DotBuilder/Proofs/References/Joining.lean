import DotBuilder.OrdMap.Firsts
import DotBuilder.Proofs.References.Bare
import Mathlib.Data.List.Perm.Subperm

/-!
# Adding an edge

What adding an edge does, in every workspace and for ends given in any way: by a node, or by a name
that the graph lists a plain node under, or an HTML node, or both, or neither.

* `Joins` : an edge has been added, with the nodes that were missing, and nothing else has changed;
* `joins_connected` : adding an edge does this;
* `addEdge_specified` : and it is refused only for a name that a strict graph does not take.
-/

namespace DotBuilder

/-- What is given for a side out of what is given for both. -/
def Side.of {α : Type} (source target : α) : Side → α
  | .source => source
  | .target => target

theorem NodeRef.length_names_le (r : NodeRef) : r.names.length ≤ 1 := by
  cases r <;> simp [names]

namespace Workspace

variable {w w' : Workspace} {g h : GraphId} {x : String} {source target : NodeRef} {own : AttrSet}

/-! ## The nodes of both ends -/

theorem connected_eq_placeBare : w.connected g source target own =
    ((w.placeBare g (w.missing g source target)).placeEdge g (w.resolve g source).2
      ((w.resolve g source).1.resolve g target).2 own).1 := by
  rw [connected_eq, resolve_resolve_eq_placeBare]

theorem edge_placeEdge (s t : NodeId) (k : EdgeId) :
    (w.placeEdge g s t own).1.edge k =
      if k = ⟨.graph g (w.graph g).edgesMade⟩ then ⟨g, ⟨s, .anywhere⟩, ⟨t, .anywhere⟩⟩
      else w.edge k := rfl

theorem edgesMade_placeBare (names : List String) :
    ((w.placeBare g names).graph g).edgesMade = (w.graph g).edgesMade := by
  rw [graph_placeBare, if_pos rfl]

/-- The ends of the new edge are what its references are resolved to. -/
theorem edge_connected : (w.connected g source target own).edge ⟨.graph g (w.graph g).edgesMade⟩ =
    ⟨g, ⟨(w.resolve g source).2, .anywhere⟩,
      ⟨((w.resolve g source).1.resolve g target).2, .anywhere⟩⟩ := by
  rw [connected_eq_placeBare, edge_placeEdge, edgesMade_placeBare, if_pos rfl]

theorem endNode_connected_of_given {side : Side} {n : NodeId}
    (hn : side.of source target = .given n) :
    (w.connected g source target own).endNode ⟨.graph g (w.graph g).edgesMade⟩ side = n := by
  unfold endNode
  rw [edge_connected]
  cases side with
  | source =>
    obtain rfl : source = .given n := hn
    rfl
  | target =>
    obtain rfl : target = .given n := hn
    rfl

/-- The source stays what its name leads to while the target is resolved. -/
theorem endNode_connected_of_named {side : Side} (hx : side.of source target = .named x) :
    ((w.connected g source target own).graph g).node? x =
      some ((w.connected g source target own).endNode ⟨.graph g (w.graph g).edgesMade⟩ side) := by
  unfold endNode
  rw [edge_connected, connected_eq, node?_placeEdge]
  cases side with
  | source =>
    obtain rfl : source = .named x := hx
    exact node?_resolve (node?_resolve_self w g x)
  | target =>
    obtain rfl : target = .named x := hx
    exact node?_resolve_self _ g x

/-! ## The missing names -/

theorem nodup_missing (w : Workspace) (g : GraphId) (source target : NodeRef) :
    (w.missing g source target).Nodup :=
  (nodup_eraseDups _).filter _

theorem mem_missing_iff : x ∈ w.missing g source target ↔
    (source = .named x ∨ target = .named x) ∧
      x ∉ (w.graph g).nodes.keys ∧ x ∉ (w.graph g).htmlNodes.keys := by
  have hnames : ∀ r : NodeRef, x ∈ r.names ↔ r = .named x := by
    intro r
    cases r <;> simp [NodeRef.names, eq_comm]
  unfold missing Graph.nodeNames
  rw [List.mem_filter, List.mem_eraseDups, List.mem_append, hnames, hnames, decide_eq_true_iff,
    List.mem_append, not_or]

theorem missing_sublist (w : Workspace) (g : GraphId) (source target : NodeRef) :
    (w.missing g source target).Sublist (source.names ++ target.names) :=
  List.filter_sublist.trans (eraseDups_sublist _)

/-- Both ends of a loop are given by one name at most. -/
theorem length_missing_self_le (w : Workspace) (g : GraphId) (r : NodeRef) :
    (w.missing g r r).length ≤ 1 := by
  have hsub : w.missing g r r ⊆ r.names := fun x hx => by
    simpa using (w.missing_sublist g r r).subset hx
  exact Nat.le_trans ((w.nodup_missing g r r).subperm hsub).length_le r.length_names_le

theorem length_missing_le (w : Workspace) (g : GraphId) (source target : NodeRef) :
    (w.missing g source target).length ≤ 2 := by
  have hle := (w.missing_sublist g source target).length_le
  have hs := source.length_names_le
  have ht := target.length_names_le
  rw [List.length_append] at hle
  omega

/-! ## What changes -/

/-- An edge has been added to a graph, with the nodes that its ends were missing, and nothing else
has changed. -/
structure Joins (w w' : Workspace) (g : GraphId) (source target : NodeRef) (own : AttrSet)
    (k : EdgeId) : Prop where
  /-- The edge is new. -/
  new : w.madeEdge k = false
  /-- It is the last one of the graph. -/
  edges : (w'.graph g).edges = (w.graph g).edges ++ [k]
  /-- It belongs to the graph and has no ports. -/
  edge : ∃ s t, w'.edge k = ⟨g, ⟨s, .anywhere⟩, ⟨t, .anywhere⟩⟩
  /-- It has the attributes. -/
  attributes : w'.attrSet (.edge k) = own
  /-- An end that was given by a node is this node. -/
  given {side : Side} {n : NodeId} (hn : side.of source target = .given n) : w'.endNode k side = n
  /-- An end that was given by a name is what the name leads to now. -/
  named {side : Side} {x : String} (hx : side.of source target = .named x) :
    (w'.graph g).node? x = some (w'.endNode k side)
  /-- The graph lists plain nodes for the missing names behind the others. -/
  nodes : (w'.graph g).nodes.entries =
    (w.graph g).nodes.entries ++ w.bareNodes g (w.missing g source target)
  /-- There is one for each. -/
  size : (w'.graph g).nodes.size = (w.graph g).nodes.size + (w.missing g source target).length
  /-- They are new, have these names, and no attributes, as strictly as the graph says. -/
  bare {e : String × PlainId} (he : e ∈ w.bareNodes g (w.missing g source target)) :
    w.madeNode (.plain e.2) = false ∧ w'.node (.plain e.2) = ⟨e.1, .node (.plain e.2)⟩ ∧
      w'.attrSet (.node (.plain e.2)) = .blank .node false (w.graph g).strict
  /-- The graph lists the HTML nodes that it listed. -/
  htmlNodes : (w'.graph g).htmlNodes = (w.graph g).htmlNodes
  /-- Nothing else of the graph changes but its counts. -/
  graph : w'.graph g =
    { w.graph g with
      nodes := (w'.graph g).nodes
      edges := (w'.graph g).edges
      plainMade := (w'.graph g).plainMade
      edgesMade := (w'.graph g).edgesMade }
  /-- The other graphs stay as they are. -/
  graph_other {h : GraphId} (hne : h ≠ g) : w'.graph h = w.graph h
  /-- All nodes stay as they are. -/
  node_made {n : NodeId} (hn : w.madeNode n = true) : w'.node n = w.node n
  /-- All other edges stay as they are. -/
  edge_made {e : EdgeId} (he : w.madeEdge e = true) : w'.edge e = w.edge e
  /-- All attribute sets stay as they are. -/
  attrSet_made {s : SetId} (hs : w.madeSet s = true) : w'.attrSet s = w.attrSet s
  /-- All tables stay as they are. -/
  tables : w'.tables = w.tables

theorem nodes_connected : ((w.connected g source target own).graph g).nodes =
    (w.graph g).nodes.insertList (w.bareNodes g (w.missing g source target)) := by
  rw [connected_eq_placeBare, graph_placeEdge, if_pos rfl, graph_placeBare, if_pos rfl]

theorem entries_connected : ((w.connected g source target own).graph g).nodes.entries =
    (w.graph g).nodes.entries ++ w.bareNodes g (w.missing g source target) := by
  rw [nodes_connected]
  refine OrdMap.entries_insertList_of_notMem ?_ fun x hx => ?_
  · rw [map_fst_bareNodes]
    exact w.nodup_missing g source target
  · rw [map_fst_bareNodes] at hx
    exact (mem_missing_iff.1 hx).2.1

/-- **Adding an edge adds the edge and the missing nodes, and changes nothing else.** -/
theorem joins_connected (w : Workspace) (g : GraphId) (source target : NodeRef) (own : AttrSet) :
    Joins w (w.connected g source target own) g source target own
      ⟨.graph g (w.graph g).edgesMade⟩ where
  new := by simp [madeEdge]
  edges := by
    rw [connected_eq_placeBare, graph_placeEdge, if_pos rfl, graph_placeBare, if_pos rfl]
  edge := ⟨_, _, edge_connected⟩
  attributes := by
    rw [connected_eq_placeBare, attrSet_placeEdge, edgesMade_placeBare, if_pos rfl]
  given := endNode_connected_of_given
  named := endNode_connected_of_named
  nodes := entries_connected
  size := by
    unfold OrdMap.size
    rw [entries_connected, List.length_append, length_bareNodes]
  bare he := by
    obtain ⟨hnode, hset⟩ := bare_of_mem_bareNodes he
    refine ⟨madeNode_of_mem_bareNodes he, ?_, ?_⟩
    · rw [connected_eq_placeBare]
      exact hnode
    · rw [connected_eq_placeBare, attrSet_placeEdge, if_neg (by simp)]
      exact hset
  htmlNodes := by
    rw [connected_eq_placeBare, graph_placeEdge, if_pos rfl, graph_placeBare, if_pos rfl]
  graph := by
    rw [connected_eq_placeBare, graph_placeEdge, if_pos rfl, graph_placeBare, if_pos rfl]
  graph_other hne := by
    rw [connected_eq_placeBare, graph_placeEdge, if_neg hne, graph_placeBare, if_neg hne]
  node_made := by
    intro n hn
    have hother : ∀ e ∈ w.bareNodes g (w.missing g source target), n ≠ .plain e.2 := by
      rintro e he rfl
      rw [madeNode_of_mem_bareNodes he] at hn
      cases hn
    rw [connected_eq_placeBare]
    exact node_placeBare hother
  edge_made := by
    intro e he
    have hne : e ≠ ⟨.graph g (w.graph g).edgesMade⟩ := by
      rintro rfl
      simp [madeEdge] at he
    rw [connected_eq_placeBare, edge_placeEdge, edgesMade_placeBare, if_neg hne, edge,
      edges_placeBare]
    rfl
  attrSet_made := by
    intro s hs
    have hne : s ≠ .edge ⟨.graph g (w.graph g).edgesMade⟩ := by
      rintro rfl
      simp [madeSet, madeEdge] at hs
    have hother : ∀ e ∈ w.bareNodes g (w.missing g source target), s ≠ .node (.plain e.2) := by
      rintro e he rfl
      have hn : w.madeNode (.plain e.2) = true := hs
      rw [madeNode_of_mem_bareNodes he] at hn
      cases hn
    rw [connected_eq_placeBare, attrSet_placeEdge, edgesMade_placeBare, if_neg hne,
      attrSet_placeBare hother]
  tables := by
    rw [connected_eq_placeBare]
    exact tables_placeBare

/-! ## The command -/

/-- A map of attributes has a name that a context does not take. -/
theorem exists_unaccepted_iff {c : Context} {given : Attrs} :
    (∃ name rest, unaccepted c given = name :: rest) ↔
      ∃ name ∈ given.keys, DotBuilder.accepts c name = false := by
  constructor
  · rintro ⟨name, rest, h⟩
    exact ⟨name, mem_unaccepted_iff.1 (h ▸ List.mem_cons_self ..)⟩
  · rintro ⟨name, hname⟩
    exact List.exists_cons_of_ne_nil (List.ne_nil_of_mem (mem_unaccepted_iff.2 hname))

/-- Adding an edge is refused for the attributes alone. -/
theorem addEdge_refused_iff {given : Attrs}
    (hm : (Command.addEdge g source target given).mentions.all w.made = true) :
    (∃ e, (w.step (.addEdge g source target given)).2.result = .error e) ↔
      (w.graph g).strict = true ∧ ∃ name ∈ given.keys, DotBuilder.accepts .edge name = false := by
  rw [← exists_unaccepted_iff]
  constructor
  · rintro ⟨e, he⟩
    cases hcheck : (w.blankEdgeSet g).check given with
    | error e' =>
      obtain ⟨hs, name, rest, hu, -⟩ := AttrSet.check_eq_error_iff.1 hcheck
      exact ⟨hs, name, rest, hu⟩
    | ok found =>
      rw [step_addEdge hm hcheck] at he
      cases he
  · rintro ⟨hs, name, rest, hu⟩
    have hcheck : (w.blankEdgeSet g).check given = .error (.invalidAttribute name .edge) :=
      AttrSet.check_eq_error_iff.2 ⟨hs, name, rest, hu, rfl⟩
    rw [step_addEdge_of_error hm hcheck]
    exact ⟨_, rfl⟩

/-- **Adding an edge is fully specified.**  It is refused exactly if the graph is strict and has
attributes that edges do not take, and then changes nothing.  If not, there is one more edge at the
end of the list.  An end given by a node is that node; an end given by a name is what the name leads
to afterwards.  The names at the ends that led to no node before, each once and the source's first,
are added as plain nodes without attributes, so no more than two, and one for a loop.  Everything
that was there stays as it was. -/
theorem addEdge_specified (w : Workspace) {g : GraphId} {source target : NodeRef} {given : Attrs}
    (hm : (Command.addEdge g source target given).mentions.all w.made = true) :
    let tried := w.step (.addEdge g source target given)
    let v := tried.1
    let missing := w.missing g source target
    ((∃ e, tried.2.result = .error e) ↔
      (w.graph g).strict = true ∧ ∃ name ∈ given.keys, DotBuilder.accepts .edge name = false) ∧
    (∀ e, tried.2.result = .error e → v = w) ∧
    (((w.graph g).strict = true → ∀ name ∈ given.keys, DotBuilder.accepts .edge name = true) →
      ∃ k, Joins w v g source target ((w.blankEdgeSet g).store given) k ∧
        tried.2 = ⟨.ok (.ofObject
          (.edgeAdded (v.edgeText k) (v.graph g).nodes.size (v.graph g).edges.length) (.edge k)),
          LogEntry.ofFindings (attrsFindings .edge given)⟩) ∧
    missing.Nodup ∧ missing.Sublist (source.names ++ target.names) ∧
    (∀ x, x ∈ missing ↔ (source = .named x ∨ target = .named x) ∧
      x ∉ (w.graph g).nodes.keys ∧ x ∉ (w.graph g).htmlNodes.keys) ∧
    missing.length ≤ 2 ∧ (source = target → missing.length ≤ 1) := by
  intro tried v missing
  refine ⟨addEdge_refused_iff hm, fun e he => congrArg Prod.fst (step_of_refused he),
    fun htakes => ?_, w.nodup_missing g source target, w.missing_sublist g source target,
    fun x => mem_missing_iff, w.length_missing_le g source target, ?_⟩
  · have hcheck : (w.blankEdgeSet g).check given = .ok (attrsFindings .edge given) :=
      AttrSet.check_eq_ok_iff.2 ⟨fun hs => unaccepted_eq_nil_iff.2 (htakes hs), rfl⟩
    have hv : v = w.connected g source target ((w.blankEdgeSet g).store given) :=
      congrArg Prod.fst (step_addEdge hm hcheck)
    refine ⟨⟨.graph g (w.graph g).edgesMade⟩, ?_, ?_⟩
    · rw [hv]
      exact joins_connected w g source target _
    · rw [hv]
      exact congrArg Prod.snd (step_addEdge hm hcheck)
  · rintro rfl
    exact w.length_missing_self_le g source

/-- In a strict graph that lists an HTML node: a loop with a color, an edge between the HTML node
and a node of its own, and an edge with a shape. -/
theorem addEdge_specified_loop :
    let cs : List Command :=
      [.newGraph .directed "g" true, .addHtmlNode ⟨0⟩ "h" .empty, .newNode "n" none]
    let n : NodeId := .plain ⟨.loose 0⟩
    let loop : Command := .addEdge ⟨0⟩ (.named "a") (.named "a") (.ofList [("color", .text "red")])
    let mixed : Command := .addEdge ⟨0⟩ (.named "h") (.given n) .empty
    let shaped : Command := .addEdge ⟨0⟩ (.named "a") (.given n) (.ofList [("shape", .text "box")])
    let w := (empty.run cs).1
    (loop.mentions.all w.made = true ∧ mixed.mentions.all w.made = true ∧
      shaped.mentions.all w.made = true) ∧
    (∃ k, ((w.step loop).1.graph ⟨0⟩).edges = [k] ∧ ((w.step loop).1.graph ⟨0⟩).nodes.size = 1 ∧
      ((w.step loop).1.graph ⟨0⟩).node? "a" = some ((w.step loop).1.endNode k .target)) ∧
    (∃ k, (w.step mixed).1.endNode k .source = .html ⟨.graph ⟨0⟩ 0⟩ ∧
      (w.step mixed).1.endNode k .target = n ∧ ((w.step mixed).1.graph ⟨0⟩).nodes.size = 0) ∧
    ∃ e, (w.step shaped).2.result = .error e := by
  intro cs n loop mixed shaped w
  have hloop : loop.mentions.all w.made = true := by decide +kernel
  have hmixed : mixed.mentions.all w.made = true := by decide +kernel
  have hshaped : shaped.mentions.all w.made = true := by decide +kernel
  refine ⟨⟨hloop, hmixed, hshaped⟩, ?_, ?_, ?_⟩
  · obtain ⟨k, hk, -⟩ := (addEdge_specified w hloop).2.2.1 fun _ => by decide +kernel
    exact ⟨k, hk.edges, hk.size, hk.named rfl⟩
  · obtain ⟨k, hk, -⟩ := (addEdge_specified w hmixed).2.2.1 fun _ name hname => nomatch hname
    have hsource : ((w.step mixed).1.graph ⟨0⟩).node? "h" = some (.html ⟨.graph ⟨0⟩ 0⟩) := rfl
    exact ⟨k, Option.some.inj ((hk.named rfl).symm.trans hsource), hk.given rfl, hk.size⟩
  · exact (addEdge_specified w hshaped).1.2 (by decide +kernel)

end Workspace

end DotBuilder
