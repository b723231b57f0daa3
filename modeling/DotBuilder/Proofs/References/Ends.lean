import DotBuilder.Proofs.Accepted
import DotBuilder.Proofs.References.Bound
import DotBuilder.Proofs.References.Missing
import Mathlib.Data.List.Induction

/-!
# Ends of edges

An edge ends at a node that its graph lists, or listed until a removal without force took its name
away.  The last command that put the name there or took it away decides.

* `Creates`, `Removes` : a command that lists a node under a name, or takes the name away;
* `RemovedLast` : the last of these since an edge was added is a removal without force;
* `ends_listed_or_removed` : there is no other way for an edge to end at a node that is not listed,
  and where all removals are forced, lint misses no node.
-/

namespace DotBuilder.Workspace

variable {w w' : Workspace} {g : GraphId} {e : EdgeId} {x : String} {c : Command}

/-! ## What commands do to a name -/

/-- A command, not refused, makes a node of a name in a graph. -/
def Creates (w : Workspace) (g : GraphId) (x : String) (c : Command) : Prop :=
  (w.step c).2.result.isOk = true ∧
    match c with
    | .addNode h name _ | .addHtmlNode h name _ => h = g ∧ name = x
    | .addEdge h source target _ =>
      h = g ∧ (source = .named x ∨ target = .named x) ∧ x ∉ (w.graph g).nodeNames
    | _ => False

/-- A command takes a name that leads to a node out of a graph. -/
def Removes (w : Workspace) (g : GraphId) (x : String) (c : Command) : Prop :=
  (∃ force, c = .removeNode g x force) ∧ x ∈ (w.graph g).nodeNames

/-- A name that a command makes a node of is listed. -/
theorem mem_nodeNames_of_creates (hw : Bound w) (hc : w.KeepsNames c) (h : w.Creates g x c) :
    x ∈ ((w.step c).1.graph g).nodeNames := by
  obtain ⟨hok, h⟩ := h
  have he : w.Effect c (w.step c).1 := w.step_effect c
  generalize (w.step c).1 = w' at he
  cases he with
  | refused hr =>
    rw [hr] at hok
    cases hok
  | addNode name =>
    obtain ⟨rfl, rfl⟩ := h
    exact Graph.mem_nodeNames_iff.2 ⟨_, (node?_placePlain _).trans (if_pos ⟨rfl, rfl⟩)⟩
  | addHtmlNode name =>
    obtain ⟨rfl, rfl⟩ := h
    exact mem_nodeNames_placeHtml _
  | addEdge hg =>
    obtain ⟨⟨source, rfl⟩, target, rfl⟩ := hc
    obtain ⟨rfl, hx, -⟩ := h
    rcases hx with hx | hx
    · cases hx
      obtain ⟨-, e, -, hs, -⟩ := hw.connected hg _ rfl
      exact Graph.mem_nodeNames_iff.2 ⟨_, hs⟩
    · cases hx
      obtain ⟨-, e, -, -, ht⟩ := hw.connected hg _ rfl
      exact Graph.mem_nodeNames_iff.2 ⟨_, ht⟩
  | @asked c ha => cases c <;> first | exact h.elim | cases ha
  | _ => exact h.elim

/-- Only a removal takes a name away. -/
theorem exists_removeNode_of_notMem (hc : w.KeepsNames c) (hg : w.madeGraph g)
    (hx : x ∈ (w.graph g).nodeNames) (hx' : x ∉ ((w.step c).1.graph g).nodeNames) :
    ∃ force, c = .removeNode g x force := by
  have hl : w.ListChange c (w.step c).1 := (w.step_effect c).lists
  generalize (w.step c).1 = w' at hl hx'
  rw [← Graph.node?_eq_none_iff] at hx'
  obtain ⟨n, hn⟩ := Graph.mem_nodeNames_iff.1 hx
  cases hl with
  | same h =>
    rw [h.node?, hn] at hx'
    cases hx'
  | newGraph kind name strict =>
    rw [graph_newGraph_of_made hg, hn] at hx'
    cases hx'
  | @addNode h name given attributes =>
    rw [node?_placePlain] at hx'
    by_cases hh : g = h ∧ x = name
    · rw [if_pos hh] at hx'
      cases hx'
    · rw [if_neg hh, hn] at hx'
      cases hx'
  | @addHtmlNode h name given attributes =>
    rw [node?_placeHtml] at hx'
    by_cases hh : g = h ∧ x = name ∧ (w.graph h).nodes.get? name = none
    · rw [if_pos hh] at hx'
      cases hx'
    · rw [if_neg hh, hn] at hx'
      cases hx'
  | @removeNode h name force =>
    rw [node?_removeNode] at hx'
    by_cases hh : g = h ∧ x = name
    · obtain ⟨rfl, rfl⟩ := hh
      exact ⟨force, rfl⟩
    · rw [if_neg hh, hn] at hx'
      cases hx'
  | addEdge attributes =>
    obtain ⟨⟨source, rfl⟩, target, rfl⟩ := hc
    rw [node?_connected attributes hn] at hx'
    cases hx'

/-- A new edge ends at nodes that are listed. -/
theorem mem_edges_or_mem_nodeNames (hw : Bound w) (hc : w.KeepsNames c)
    (he : e ∈ ((w.step c).1.graph g).edges) :
    e ∈ (w.graph g).edges ∨ ∀ side, (w.step c).1.endName e side ∈
      ((w.step c).1.graph g).nodeNames := by
  have hl : w.ListChange c (w.step c).1 := (w.step_effect c).lists
  generalize (w.step c).1 = w' at hl he
  cases hl with
  | same h => exact .inl (h.edges g ▸ he)
  | newGraph kind name strict =>
    rw [graph_newGraph] at he
    by_cases hg : g = ⟨w.graphsMade⟩
    · rw [if_pos hg] at he
      cases he
    · rw [if_neg hg] at he
      exact .inl he
  | addNode name attributes =>
    rw [edges_placePlain] at he
    exact .inl he
  | addHtmlNode name attributes =>
    rw [edges_placeHtml] at he
    exact .inl he
  | @removeNode h name force =>
    rw [edges_removeNode] at he
    by_cases hh : g = h ∧ force = true
    · rw [if_pos hh] at he
      obtain ⟨rfl, -⟩ := hh
      exact .inl (List.mem_filter.1 he).1
    · rw [if_neg hh] at he
      exact .inl he
  | @addEdge h _ _ _ attributes hg =>
    obtain ⟨⟨source, rfl⟩, target, rfl⟩ := hc
    obtain ⟨hw', e', hedges, hs, ht⟩ := hw.connected hg attributes rfl
    rw [hedges] at he
    by_cases hh : g = h
    · subst hh
      rw [if_pos rfl, List.mem_append, List.mem_singleton] at he
      rcases he with he | rfl
      · exact .inl he
      · refine .inr fun side => ?_
        cases side with
        | source => exact hw'.name_mem_nodeNames hs
        | target => exact hw'.name_mem_nodeNames ht
    · rw [if_neg hh] at he
      exact .inl he

/-- A forced removal leaves no edge to the name. -/
theorem endName_ne_of_force (hg : w.madeGraph g)
    (he : e ∈ ((w.step (.removeNode g x true)).1.graph g).edges) (side : Side) :
    w.endName e side ≠ x := by
  rw [step_removeNode hg] at he
  exact (mem_edges_removeNode_iff.1 he).2 side

/-! ## Runs -/

/-- The last command since an edge was added that made a node of a name in a graph, or took the name
out of it, is a removal without force. -/
def RemovedLast (cs : List Command) (g : GraphId) (e : EdgeId) (x : String) : Prop :=
  ∃ before after, cs = before ++ .removeNode g x false :: after ∧
    let w := (empty.run before).1
    (e ∈ (w.graph g).edges ∧ x ∈ (w.graph g).nodeNames) ∧
      (w.step (.removeNode g x false)).1.Obeys
        (fun v c => ¬ v.Creates g x c ∧ ¬ v.Removes g x c ∧ c ≠ .removeNode g x true) after

theorem mem_nodeNames_or_removedLast {cs : List Command} (h : empty.Obeys KeepsNames cs)
    {side : Side} (he : e ∈ ((empty.run cs).1.graph g).edges)
    (hx : (empty.run cs).1.endName e side = x) :
    x ∈ ((empty.run cs).1.graph g).nodeNames ∨ RemovedLast cs g e x := by
  induction cs using List.reverseRecOn with
  | nil => cases he
  | append_singleton cs c ih =>
    obtain ⟨hcs, hc, -⟩ := obeys_append.1 h
    have hrun : (empty.run (cs ++ [c])).1 = ((empty.run cs).1.step c).1 := run_append empty cs [c]
    have hw : Bound (empty.run cs).1 := bound_run hcs
    have hk : Keeps (empty.run cs).1 ((empty.run cs).1.step c).1 := hc.keeps (step_effect _ c)
    rw [hrun] at he hx ⊢
    by_cases hx' : x ∈ (((empty.run cs).1.step c).1.graph g).nodeNames
    · exact .inl hx'
    right
    have hold : e ∈ ((empty.run cs).1.graph g).edges := by
      rcases mem_edges_or_mem_nodeNames hw hc he with hold | hlisted
      · exact hold
      · exact absurd (hx ▸ hlisted side) hx'
    obtain ⟨hg, hmade, hends⟩ := hw.edge hold
    have hname : (empty.run cs).1.endName e side = x := by
      rw [← hx, endName, endName, hk.endNode e hmade, hk.name _ (hends side)]
    by_cases hlisted : x ∈ ((empty.run cs).1.graph g).nodeNames
    · -- The command takes the name away, and not by force, since the edge is still there.
      obtain ⟨force, rfl⟩ := exists_removeNode_of_notMem hc hg hlisted hx'
      cases force with
      | true => exact absurd hname (endName_ne_of_force hg he side)
      | false => exact ⟨cs, [], rfl, ⟨hold, hlisted⟩, trivial⟩
    · -- The name was taken away before, and the command does not concern it.
      rcases ih hcs hold hname with h' | ⟨before, after, rfl, hbefore, hafter⟩
      · exact absurd h' hlisted
      refine ⟨before, after ++ [c], by simp, hbefore, obeys_append.2 ⟨hafter, ?_, trivial⟩⟩
      have hstate : (((empty.run before).1.step (.removeNode g x false)).1.run after).1 =
          (empty.run (before ++ .removeNode g x false :: after)).1 :=
        (run_append empty before (.removeNode g x false :: after)).symm
      rw [hstate]
      refine ⟨fun hcreates => hx' (mem_nodeNames_of_creates hw hc hcreates),
        fun hremoves => hlisted hremoves.2, ?_⟩
      rintro rfl
      exact endName_ne_of_force hg he side hname

/-- **Edges do not lose their nodes unnoticed.**  After all lists of commands that name no node anew
and add edges between names only, an edge of a graph ends at nodes that the graph lists, but for
those whose name was taken away by a removal without force since the edge was added, and was not put
back.  If all removals are forced, lint misses no node. -/
theorem ends_listed_or_removed {cs : List Command} (h : empty.Obeys KeepsNames cs) :
    let w := (empty.run cs).1
    (∀ g, ∀ e ∈ (w.graph g).edges, ∀ side,
      w.endName e side ∈ (w.graph g).nodeNames ∨ RemovedLast cs g e (w.endName e side)) ∧
    ((∀ g x force, .removeNode g x force ∈ cs → force = true) →
      ∀ g found x, w.lint g = .ok found → .missingNode x ∉ found.warnings) := by
  intro w
  have hends : ∀ g, ∀ e ∈ (w.graph g).edges, ∀ side,
      w.endName e side ∈ (w.graph g).nodeNames ∨ RemovedLast cs g e (w.endName e side) :=
    fun g e he side => mem_nodeNames_or_removedLast h he rfl
  refine ⟨hends, fun hforced g found x hlint hmem => ?_⟩
  cases ht : w.clusterTree? g with
  | none =>
    rw [lint, ht] at hlint
    cases hlint
  | some t =>
    rw [lint, ht] at hlint
    cases hlint
    obtain ⟨hmissing, g', hg', e, he, side, rfl⟩ := missingNode_mem_lintTree_iff.1 hmem
    rcases hends g' e he side with hlisted | ⟨before, after, hcs, -⟩
    · exact hmissing g' hg' hlisted
    · have hremoval : .removeNode g' (w.endName e side) false ∈ cs := by
        rw [hcs]
        exact List.mem_append_right _ (List.mem_cons_self ..)
      exact absurd (hforced g' _ false hremoval) Bool.false_ne_true

/-- An edge with a removed end: without force the edge stays, with force it goes. -/
theorem ends_listed_or_removed_both_ways :
    let edge : Command := .addEdge ⟨0⟩ (.named "a") (.named "b") .empty
    let kept : List Command :=
      [.newGraph .directed "g" false, edge, .removeNode ⟨0⟩ "a" false, .addNode ⟨0⟩ "c" .empty]
    let forced : List Command :=
      [.newGraph .directed "g" false, edge, .removeNode ⟨0⟩ "a" true, .addNode ⟨0⟩ "c" .empty]
    (empty.Obeys KeepsNames kept ∧ RemovedLast kept ⟨0⟩ ⟨.graph ⟨0⟩ 0⟩ "a") ∧
      empty.Obeys KeepsNames forced ∧
        ∀ found, (empty.run forced).1.lint ⟨0⟩ = .ok found → .missingNode "a" ∉ found.warnings := by
  intro edge kept forced
  have hkept : empty.Obeys KeepsNames kept :=
    ⟨trivial, ⟨⟨_, rfl⟩, _, rfl⟩, trivial, trivial, trivial⟩
  have hforced : empty.Obeys KeepsNames forced :=
    ⟨trivial, ⟨⟨_, rfl⟩, _, rfl⟩, trivial, trivial, trivial⟩
  refine ⟨⟨hkept, ?_⟩, hforced, fun found hlint => ?_⟩
  · rcases (ends_listed_or_removed hkept).1 ⟨0⟩ ⟨.graph ⟨0⟩ 0⟩ (List.mem_singleton.2 rfl) .source
      with h | h
    · exact absurd h (by decide +kernel)
    · exact h
  · refine (ends_listed_or_removed hforced).2 (fun g x force h => ?_) ⟨0⟩ found "a" hlint
    have hremoval : g = ⟨0⟩ ∧ x = "a" ∧ force = true := by simpa [forced, edge] using h
    exact hremoval.2.2

end DotBuilder.Workspace
