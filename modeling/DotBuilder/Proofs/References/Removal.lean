import DotBuilder.Proofs.Cells.Slots
import DotBuilder.Proofs.References.History

/-!
# Removing a node by force

A removal by force takes a name out of the maps of nodes, and with it the edges that end at a node
of this name.  The maps go by the names that nodes were made with, and the edges by those that they
have now.  The two differ for a node that was named anew, and then the removal can leave an edge at
a node that it removes.

* `Graph.Lists`, `Graph.mem_allNodes_iff` : the name under which a graph lists a node;
* `nameGiven`, `namesGiven` : the names that the commands of a list give to a node;
* `name_of_created`, `name_of_lists` : a node has the name that it was given last, or else the one
  that it is listed under;
* `removed_iff`, `edges_removeNode_sublist`, `no_edge_left_iff` : what a removal takes out, and what
  it leaves;
* `forced_removal_specified` : all of it, and when no edge is left at a removed node.
-/

namespace DotBuilder

/-! ## Nodes under their names -/

/-- A graph lists a node under a name. -/
def Graph.Lists (r : Graph) (x : String) : NodeId → Prop
  | .plain p => r.nodes.get? x = some p
  | .html h => r.htmlNodes.get? x = some h

theorem Graph.mem_allNodes_iff {r : Graph} {n : NodeId} :
    n ∈ r.allNodes ↔ ∃ x, r.Lists x n := by
  unfold allNodes
  cases n with
  | plain p => simp [OrdMap.mem_values_iff, Lists]
  | html h => simp [OrdMap.mem_values_iff, Lists]

/-- A graph that lists nothing twice lists each node under one name. -/
theorem Graph.ListsOnce.eq_of_lists {r : Graph} (hr : r.ListsOnce) {x y : String} {n : NodeId}
    (hx : r.Lists x n) (hy : r.Lists y n) : x = y := by
  cases n with
  | plain p => exact hr.plain x y p hx hy
  | html h => exact hr.html x y h hx hy

namespace Workspace

variable {w w' : Workspace} {g : GraphId} {n : NodeId} {e : EdgeId} {c : Command} {x k : String}
  {cs : List Command}

/-! ## Names given to a node -/

/-- The name that a command gives to a node. -/
def nameGiven (w : Workspace) (n : NodeId) : Command → Option String
  | .renameNode m x => if w.madeNode m = true ∧ m = n then some x else none
  | _ => none

/-- The names that the commands of a list give to a node, one after the other. -/
def namesGiven (w : Workspace) (n : NodeId) (cs : List Command) : List String :=
  w.gather (fun v c => v.nameGiven n c) cs

theorem nameGiven_eq_some_iff :
    w.nameGiven n c = some x ↔ c = .renameNode n x ∧ w.madeNode n = true := by
  constructor
  · intro h
    unfold nameGiven at h
    split at h
    · obtain ⟨⟨hn, rfl⟩, ⟨⟩⟩ := Option.ite_none_right_eq_some.1 h
      exact ⟨rfl, hn⟩
    · cases h
  · rintro ⟨rfl, hn⟩
    exact if_pos ⟨hn, rfl⟩

/-- A node gets no name before it is made. -/
theorem nameGiven_of_unmade (hn : w.madeNode n = false) : w.nameGiven n c = none := by
  rw [Option.eq_none_iff_forall_ne_some]
  intro x hx
  rw [(nameGiven_eq_some_iff.1 hx).2] at hn
  cases hn

theorem step_renameNode (hn : w.madeNode n = true) (x : String) :
    w.step (.renameNode n x) = (w.renameNode n x, ⟨.ok (.ofAnswer (.text x)), []⟩) := by
  have hm : (Command.renameNode n x).mentions.all w.made = true := by
    simpa [Command.mentions, made] using hn
  exact step_of_execute hm rfl

theorem name_renameNode (m : NodeId) (x : String) :
    ((w.renameNode m x).node n).name = if m = n then x else (w.node n).name := by
  unfold renameNode node
  rw [Registry.get_modify]
  by_cases h : n = m
  · simp [h]
  · have h' : ¬ m = n := fun e => h e.symm
    simp [h, h']

/-- **A step gives a node the name that it is named anew with**, and leaves it its name if not. -/
theorem name_step (hn : w.madeNode n = true) (c : Command) :
    ((w.step c).1.node n).name = (w.nameGiven n c).getD (w.node n).name := by
  by_cases hc : ∃ m x, c = .renameNode m x
  · obtain ⟨m, x, rfl⟩ := hc
    by_cases hm : w.madeNode m = true
    · rw [step_renameNode hm, name_renameNode]
      by_cases h : m = n
      · rw [if_pos h, nameGiven, if_pos ⟨hm, h⟩]
        rfl
      · rw [if_neg h, nameGiven, if_neg fun e => h e.2]
        rfl
    · have he : w.Effect (.renameNode m x) (w.step (.renameNode m x)).1 := w.step_effect _
      rw [nameGiven, if_neg fun e => hm e.1]
      generalize (w.step (.renameNode m x)).1 = w' at he
      cases he with
      | refused => rfl
      | asked h => cases h
      | renameNode _ hmade => exact absurd hmade hm
  · have hkeeps : Keeps w (w.step c).1 :=
      (w.step_effect c).keeps fun m x h => hc ⟨m, x, h⟩
    have hnone : w.nameGiven n c = none := by
      rw [Option.eq_none_iff_forall_ne_some]
      exact fun x hx => hc ⟨n, x, (nameGiven_eq_some_iff.1 hx).1⟩
    rw [hkeeps.name n hn, hnone]
    rfl

/-- **After a run a node has the name that it was given last.** -/
theorem name_run (hn : w.madeNode n = true) (cs : List Command) :
    ((w.run cs).1.node n).name = (w.namesGiven n cs).getLast?.getD (w.node n).name := by
  have hkeeps : ∀ v c, madeNode v n = true → madeNode (v.step c).1 n = true :=
    fun v c hv => made_stays (o := .node n) hv c
  exact eq_getLast_gather (fun v => (v.node n).name) hkeeps (fun v c hv => name_step hv c) hn cs

/-! ## Nodes that are created -/

/-- A node that a command creates is new, and it is listed under its name. -/
theorem new_of_mem_nodeEvents (h : .created x n ∈ w.nodeEvents g c) :
    w.madeNode n = false ∧ ((w.step c).1.graph g).Lists x n ∧
      ((w.step c).1.node n).name = x := by
  have he : w.Effect c (w.step c).1 := w.step_effect c
  generalize (w.step c).1 = w' at he
  cases he with
  | refused hr =>
    rw [nodeEvents_of_error hr] at h
    cases h
  | asked ha =>
    rw [nodeEvents_of_listsNodes (Command.listsNodes_of_asks ha)] at h
    cases h
  | addNode name hg hcheck =>
    rw [nodeEvents_addNode hg hcheck] at h
    split at h
    · rename_i heq
      subst heq
      cases List.mem_singleton.1 h
      refine ⟨by simp [madeNode], ?_, name_placePlain ..⟩
      rw [graph_placePlain, if_pos rfl]
      exact (OrdMap.get?_insert ..).trans (if_pos rfl)
    · cases h
  | addHtmlNode name hg hcheck =>
    rw [nodeEvents_addHtmlNode hg hcheck] at h
    split at h
    · rename_i heq
      subst heq
      cases List.mem_singleton.1 h
      refine ⟨by simp [madeNode], ?_, name_placeHtml ..⟩
      rw [graph_placeHtml, if_pos rfl]
      exact (OrdMap.get?_insert ..).trans (if_pos rfl)
    · cases h
  | removeNode name force hg =>
    rw [nodeEvents_removeNode hg] at h
    split at h
    · cases List.mem_singleton.1 h
    · cases h
  | @addEdge g' source target given found hg hs ht hcheck =>
    rw [nodeEvents_addEdge (mentions_addEdge hg hs ht) hcheck] at h
    split at h
    · rename_i heq
      subst heq
      obtain ⟨b, hb, ⟨⟩⟩ := List.mem_map.1 h
      have hjoins := joins_connected w g' source target ((w.blankEdgeSet g').store given)
      obtain ⟨hnew, hnode, -⟩ := hjoins.bare hb
      refine ⟨hnew, ?_, congrArg Node.name hnode⟩
      refine (OrdMap.mem_entries_iff ..).1 ?_
      rw [hjoins.nodes]
      exact List.mem_append_right _ hb
    · cases h
  | _ =>
    rw [nodeEvents_of_listsNodes rfl] at h
    cases h

/-- **A node that was created in a run has the name that it was given last**, or the one that it was
created under. -/
theorem name_of_created (hw : Owned w) (h : .created x n ∈ w.nodeHistory g cs) :
    w.madeNode n = false ∧
      ((w.run cs).1.node n).name = (w.namesGiven n cs).getLast?.getD x := by
  induction cs generalizing w with
  | nil => cases h
  | cons c cs ih =>
    have hgiven : w.madeNode n = false →
        w.namesGiven n (c :: cs) = (w.step c).1.namesGiven n cs := by
      intro hn
      rw [namesGiven, gather, nameGiven_of_unmade hn]
      rfl
    rcases List.mem_append.1 h with h | h
    · obtain ⟨hnew, hlists, hname⟩ := new_of_mem_nodeEvents h
      have hmade : (w.step c).1.madeNode n = true :=
        ((hw.step c).node_of_mem (Graph.mem_allNodes_iff.2 ⟨x, hlists⟩)).2
      refine ⟨hnew, ?_⟩
      rw [hgiven hnew, run_cons, name_run hmade, hname]
    · obtain ⟨hnew, hname⟩ := ih (hw.step c) h
      have hn : w.madeNode n = false := by
        rw [Bool.eq_false_iff] at hnew ⊢
        exact fun hn => hnew (made_stays (o := .node n) hn c)
      rw [hgiven hn]
      exact ⟨hn, hname⟩

/-- What a graph lists under a name was created under it. -/
theorem created_of_lists (h : ((empty.run cs).1.graph g).Lists x n) :
    .created x n ∈ empty.nodeHistory g cs := by
  obtain ⟨hplain, hhtml⟩ := tells_run owned_empty g cs
  cases n with
  | plain p =>
    have hget : ((empty.run cs).1.graph g).nodes.get? x = some p := h
    rw [hplain] at hget
    obtain ⟨before, after, hsplit, -⟩ := OrdMap.get?_replay_eq_some_iff.1 hget
    have hmem : .bound x p ∈ (empty.nodeHistory g cs).filterMap NodeEvent.onPlain :=
      hsplit ▸ List.mem_append_right _ (List.mem_cons_self ..)
    obtain ⟨ev, hev, hbound⟩ := List.mem_filterMap.1 hmem
    exact NodeEvent.onPlain_eq_bound_iff.1 hbound ▸ hev
  | html q =>
    have hget : ((empty.run cs).1.graph g).htmlNodes.get? x = some q := h
    rw [hhtml] at hget
    obtain ⟨before, after, hsplit, -⟩ := OrdMap.get?_replay_eq_some_iff.1 hget
    have hmem : .bound x q ∈ (empty.nodeHistory g cs).filterMap NodeEvent.onHtml :=
      hsplit ▸ List.mem_append_right _ (List.mem_cons_self ..)
    obtain ⟨ev, hev, hbound⟩ := List.mem_filterMap.1 hmem
    exact NodeEvent.onHtml_eq_bound_iff.1 hbound ▸ hev

/-- **A node that a graph lists has the name that it was given last**, or the one that it is listed
under. -/
theorem name_of_lists (h : ((empty.run cs).1.graph g).Lists x n) :
    ((empty.run cs).1.node n).name = (empty.namesGiven n cs).getLast?.getD x :=
  (name_of_created owned_empty (created_of_lists h)).2

/-! ## The removal -/

theorem lists_removeNode_iff {force : Bool} :
    ((w.removeNode g k force).graph g).Lists x n ↔ (w.graph g).Lists x n ∧ x ≠ k := by
  unfold removeNode
  rw [graph_modifyGraph, if_pos rfl]
  cases n <;> simp [Graph.Lists, OrdMap.get?_erase, eq_comm, and_comm]

/-- The nodes that a removal takes out of a graph are those that it lists under the name. -/
theorem removed_iff (hl : (w.graph g).ListsOnce) {force : Bool} :
    n ∈ (w.graph g).allNodes ∧ n ∉ ((w.removeNode g k force).graph g).allNodes ↔
      (w.graph g).Lists k n := by
  simp only [Graph.mem_allNodes_iff, lists_removeNode_iff, not_exists, not_and, not_not]
  constructor
  · rintro ⟨⟨x, hx⟩, hall⟩
    exact hall x hx ▸ hx
  · exact fun hk => ⟨⟨k, hk⟩, fun x hx => hl.eq_of_lists hx hk⟩

/-- A removal by force leaves the other edges in their order. -/
theorem edges_removeNode_sublist :
    ((w.removeNode g k true).graph g).edges.Sublist (w.graph g).edges := by
  rw [edges_removeNode, if_pos ⟨rfl, rfl⟩]
  exact List.filter_sublist

/-- No edge is left at a removed node exactly if those of its edges that its own name does not drop
have the name at their other end. -/
theorem no_edge_left_iff :
    (∀ e ∈ ((w.removeNode g k true).graph g).edges, ∀ side,
        ¬ (w.graph g).Lists k (w.endNode e side)) ↔
      ∀ n, (w.graph g).Lists k n → (w.node n).name ≠ k →
        ∀ e ∈ (w.graph g).edges, (∃ side, w.endNode e side = n) →
          ∃ side, w.endName e side = k := by
  constructor
  · rintro hall n hn - e he ⟨side, rfl⟩
    by_contra hnone
    have hleft : e ∈ ((w.removeNode g k true).graph g).edges :=
      mem_edges_removeNode_iff.2 ⟨he, fun s hs => hnone ⟨s, hs⟩⟩
    exact hall e hleft side hn
  · intro hall e he side hn
    obtain ⟨hold, hne⟩ := mem_edges_removeNode_iff.1 he
    obtain ⟨s, hs⟩ := hall _ hn (hne side) e hold ⟨side, rfl⟩
    exact hne s hs

/-- **Removing a node by force is fully specified.**  After all lists of commands, it is not
refused.  It takes out of the graph the nodes that this lists under the name, each of which has the
name that it was given last, or the very name if it was given none.  It leaves, in their order, the
edges of the graph that have no end of the name.  So no edge is left at a node that was taken out
exactly if, for each of these nodes that was last given another name, all of its edges have an end
of the name all the same. -/
theorem forced_removal_specified (cs : List Command) {g : GraphId} (k : String)
    (hg : (empty.run cs).1.madeGraph g = true) :
    let w := (empty.run cs).1
    let tried := w.step (.removeNode g k true)
    let w' := tried.1
    let removed (n : NodeId) : Prop := n ∈ (w.graph g).allNodes ∧ n ∉ (w'.graph g).allNodes
    tried.2 = ⟨.ok (.ofAnswer (.counts (w'.graph g).nodes.size (w'.graph g).edges.length)), []⟩ ∧
    (∀ n, removed n ↔ (w.graph g).Lists k n) ∧
    (∀ n, removed n → (w.node n).name = (empty.namesGiven n cs).getLast?.getD k) ∧
    (w'.graph g).edges.Sublist (w.graph g).edges ∧
    (∀ e, e ∈ (w'.graph g).edges ↔ e ∈ (w.graph g).edges ∧ ∀ side, w.endName e side ≠ k) ∧
    ((∀ e ∈ (w'.graph g).edges, ∀ side, ¬ removed (w'.endNode e side)) ↔
      ∀ n x, removed n → (empty.namesGiven n cs).getLast? = some x → x ≠ k →
        ∀ e ∈ (w.graph g).edges, (∃ side, w.endNode e side = n) →
          ∃ side, w.endName e side = k) := by
  intro w tried w' removed
  have htried : tried = (w.removeNode g k true, ⟨.ok (.ofAnswer (.counts _ _)), []⟩) :=
    step_removeNode hg k true
  have hw' : w' = w.removeNode g k true := congrArg Prod.fst htried
  have hremoved : ∀ n, removed n ↔ (w.graph g).Lists k n := by
    intro n
    show n ∈ (w.graph g).allNodes ∧ n ∉ (w'.graph g).allNodes ↔ _
    rw [hw']
    exact removed_iff (listsOnce_run cs g)
  have hname : ∀ n, removed n → (w.node n).name = (empty.namesGiven n cs).getLast?.getD k :=
    fun n hn => name_of_lists ((hremoved n).1 hn)
  have hedges : ∀ e, e ∈ (w'.graph g).edges ↔
      e ∈ (w.graph g).edges ∧ ∀ side, w.endName e side ≠ k := by
    intro e
    rw [hw']
    exact mem_edges_removeNode_iff
  -- the end has another name than the one it is listed under if it was given one
  have hrenamed : ∀ n, removed n → ((w.node n).name ≠ k ↔
      ∃ x, (empty.namesGiven n cs).getLast? = some x ∧ x ≠ k) := by
    intro n hn
    rw [hname n hn]
    cases (empty.namesGiven n cs).getLast? <;> simp
  refine ⟨?_, hremoved, hname, ?_, hedges, ?_⟩
  · rw [hw']
    exact congrArg Prod.snd htried
  · rw [hw']
    exact edges_removeNode_sublist
  · have hleft := no_edge_left_iff (w := w) (g := g) (k := k)
    rw [← hw'] at hleft
    simp only [← hremoved] at hleft
    refine Iff.trans ?_ (hleft.trans ⟨fun hall n x hn hlast hx => ?_, fun hall n hn hne => ?_⟩)
    · rw [hw']
      rfl
    · exact hall n hn ((hrenamed n hn).2 ⟨x, hlast, hx⟩)
    · obtain ⟨x, hlast, hx⟩ := (hrenamed n hn).1 hne
      exact hall n x hn hlast hx

/-- Of two edges in a row, whose first node was named anew, the middle node is removed. -/
theorem forced_removal_specified_middle :
    let g : GraphId := ⟨0⟩
    let first : NodeId := .plain ⟨.graph g 0⟩
    let middle : NodeId := .plain ⟨.graph g 1⟩
    let cs : List Command :=
      [.newGraph .undirected "g" false, .addEdge g (.named "a") (.named "b") .empty,
        .addEdge g (.named "b") (.named "c") .empty, .renameNode first "z"]
    let w := (empty.run cs).1
    let w' := (w.step (.removeNode g "b" true)).1
    w.madeGraph g = true ∧ middle ∈ (w.graph g).allNodes ∧ middle ∉ (w'.graph g).allNodes ∧
      ∀ e ∈ (w'.graph g).edges, ∀ side, w'.endNode e side ≠ middle := by
  intro g first middle cs w w'
  have hg : w.madeGraph g = true := by decide +kernel
  obtain ⟨-, hremoved, -, -, -, hiff⟩ := forced_removal_specified cs "b" hg
  have hmiddle := (hremoved middle).2 rfl
  refine ⟨hg, hmiddle.1, hmiddle.2, fun e he side heq => ?_⟩
  refine hiff.2 (fun n x hn hlast => ?_) e he side (heq ▸ hmiddle)
  have hlisted : (w.graph g).Lists "b" n := (hremoved n).1 hn
  obtain rfl : n = middle := by
    cases n with
    | plain p =>
      have hp : (w.graph g).nodes.get? "b" = some p := hlisted
      have hb : (w.graph g).nodes.get? "b" = some ⟨.graph g 1⟩ := by decide +kernel
      rw [hb] at hp
      cases hp
      rfl
    | html q => cases hlisted
  have hnone : (empty.namesGiven middle cs).getLast? = none := by decide +kernel
  rw [hnone] at hlast
  cases hlast

/-- The first node, which was named anew, is removed by the name that it is listed under, and its
edge is left. -/
theorem forced_removal_leaves_edge :
    let g : GraphId := ⟨0⟩
    let first : NodeId := .plain ⟨.graph g 0⟩
    let cs : List Command :=
      [.newGraph .undirected "g" false, .addNode g "a" .empty,
        .addEdge g (.named "a") (.named "b") .empty, .renameNode first "z"]
    let w := (empty.run cs).1
    let w' := (w.step (.removeNode g "a" true)).1
    first ∈ (w.graph g).allNodes ∧ first ∉ (w'.graph g).allNodes ∧
      ∃ e ∈ (w'.graph g).edges, w'.endNode e .source = first := by
  decide +kernel

end Workspace

end DotBuilder
