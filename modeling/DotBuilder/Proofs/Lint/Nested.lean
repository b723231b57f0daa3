import DotBuilder.Command.Perform
import DotBuilder.Proofs.Clusters.Descent

/-!
# Lint of nested graphs

Lint goes through all graphs of a tree in one row and compares the ends of edges with the names that
any of them lists.  The outcome is the same as if each cluster were linted by itself: what is found
on a graph is what is found on it alone, followed by what lint finds on each of its clusters without
the warnings on missing nodes of names that are listed further up or aside.

* `Report.without` : findings without the warnings on some missing nodes;
* `lintGraph_of_subset`, `lintTree_eq` : more names take warnings away and add none, so a tree is
  linted cluster by cluster;
* `lint_is_compositional` : the same for the lint of all graphs of a tree.
-/

namespace DotBuilder

/-! ## Warnings on missing nodes -/

/-- Whether a warning is the line that reports a missing node of one of some names. -/
def Warning.misses (names : List String) (x : Warning) : Bool :=
  names.any fun name => x.message == "edge references missing node: " ++ name

/-- Findings without the warnings on missing nodes of some names. -/
def Report.without (names : List String) (found : Findings) : Findings where
  errors := found.errors
  warnings := found.warnings.filter fun x => !x.misses names

namespace Warning

variable {x : Warning} {name : String} {names : List String}

/-- The two wordings start with different letters. -/
theorem wordings_ne (other context name : String) :
    "Invalid attribute '" ++ other ++ "' for " ++ context ≠
      "edge references missing node: " ++ name := by
  intro h
  have hhead := congrArg (fun s : String => s.toList.head?) h
  have hi : "Invalid attribute '".toList.head? = some 'I' := by decide
  have he : "edge references missing node: ".toList.head? = some 'e' := by decide
  simp only [String.toList_append, List.head?_append] at hhead
  rw [hi, he] at hhead
  simp at hhead

theorem message_eq_iff :
    x.message = "edge references missing node: " ++ name ↔ x = .missingNode name := by
  cases x with
  | invalidAttribute other context =>
    exact iff_of_false (wordings_ne other context.name name) Warning.noConfusion
  | missingNode other =>
    rw [missingNode.injEq]
    exact String.append_right_inj _

theorem misses_eq_true_iff : x.misses names = true ↔ ∃ name ∈ names, x = .missingNode name := by
  simp only [misses, List.any_eq_true, beq_iff_eq, message_eq_iff]

end Warning

namespace Report

variable {names : List String}

theorem without_append (r s : Findings) :
    (r ++ s).without names = r.without names ++ s.without names :=
  Report.ext rfl (List.filter_append ..)

theorem without_concat (rs : List Findings) :
    (concat rs).without names = concat (rs.map (without names)) := by
  induction rs with
  | nil => rfl
  | cons r rest ih => rw [concat, without_append, ih, List.map_cons, concat]

/-- Findings that report no missing node keep all warnings. -/
theorem without_eq_self {r : Findings} (h : ∀ name, .missingNode name ∉ r.warnings) :
    r.without names = r := by
  refine Report.ext rfl (List.filter_eq_self.2 fun x hx => ?_)
  rw [Bool.not_eq_true', Bool.eq_false_iff]
  intro hmisses
  obtain ⟨name, -, rfl⟩ := Warning.misses_eq_true_iff.1 hmisses
  exact h name hx

end Report

namespace Workspace

variable {w : Workspace} {g : GraphId} {known more : List String}

/-! ## Graphs of a tree -/

theorem without_lintSet (c : Context) (s : SetId) :
    (w.lintSet c s).without known = w.lintSet c s := by
  refine Report.without_eq_self fun name => ?_
  rw [lintSet, warnings_attrsFindings]
  simp

/-- More names take exactly the warnings on them away. -/
theorem lintEnd_of_subset (h : known ⊆ more) (p : Endpoint) :
    w.lintEnd more p = (w.lintEnd known p).without more := by
  unfold lintEnd
  by_cases hknown : (w.node p.node).name ∈ known
  · rw [if_pos hknown, if_pos (h hknown)]
    rfl
  · rw [if_neg hknown]
    by_cases hmore : (w.node p.node).name ∈ more
    · have hmisses : (Warning.missingNode (w.node p.node).name).misses more = true :=
        Warning.misses_eq_true_iff.2 ⟨_, hmore, rfl⟩
      rw [if_pos hmore]
      simp [Report.without, Report.ofWarnings, Report.empty, hmisses]
    · have hmisses : (Warning.missingNode (w.node p.node).name).misses more = false := by
        rw [Bool.eq_false_iff]
        intro hmisses
        obtain ⟨name, hname, heq⟩ := Warning.misses_eq_true_iff.1 hmisses
        rw [Warning.missingNode.injEq] at heq
        exact hmore (heq ▸ hname)
      rw [if_neg hmore]
      simp [Report.without, Report.ofWarnings, hmisses]

theorem lintEdge_of_subset (h : known ⊆ more) (e : EdgeId) :
    w.lintEdge more e = (w.lintEdge known e).without more := by
  rw [lintEdge, lintEdge, Report.without_append, Report.without_append, without_lintSet,
    lintEnd_of_subset h, lintEnd_of_subset h]

theorem lintGraph_of_subset (h : known ⊆ more) (g : GraphId) :
    w.lintGraph more g = (w.lintGraph known g).without more := by
  have hnodes : (Report.concat ((w.graph g).allNodes.map fun n =>
        w.lintSet .node (w.node n).attributes)).without more =
      .concat ((w.graph g).allNodes.map fun n => w.lintSet .node (w.node n).attributes) := by
    rw [Report.without_concat, List.map_map]
    exact congrArg Report.concat (List.map_congr_left fun n _ => without_lintSet ..)
  have hedges : (Report.concat ((w.graph g).edges.map (w.lintEdge known))).without more =
      .concat ((w.graph g).edges.map (w.lintEdge more)) := by
    rw [Report.without_concat, List.map_map]
    exact congrArg Report.concat (List.map_congr_left fun e _ => (lintEdge_of_subset h e).symm)
  unfold lintGraph
  simp only [Report.without_append, without_lintSet, hnodes, hedges]
  rfl

/-- In a larger tree lint finds on the graphs of a tree what it finds on the tree alone, without the
warnings on the names that are known there. -/
theorem concat_lintGraph_eq {u : Tree GraphId} (h : w.knownNames u.preorder ⊆ known) :
    .concat (u.preorder.map (w.lintGraph known)) = (w.lintTree u).without known := by
  rw [lintTree, Report.without_concat, List.map_map]
  exact congrArg Report.concat (List.map_congr_left fun a _ => lintGraph_of_subset h a)

theorem knownNames_subset {gs hs : List GraphId} (h : gs ⊆ hs) :
    w.knownNames gs ⊆ w.knownNames hs := by
  intro name hname
  obtain ⟨a, ha, hname⟩ := List.mem_flatMap.1 hname
  exact List.mem_flatMap.2 ⟨a, h ha, hname⟩

/-- **A tree of graphs is linted cluster by cluster.** -/
theorem lintTree_eq (t : Tree GraphId) :
    w.lintTree t = w.lintGraph (w.knownNames t.preorder) t.root ++
      .concat (t.below.trees.map fun u => (w.lintTree u).without (w.knownNames t.preorder)) := by
  have hcluster : ∀ u ∈ t.below.trees,
      .concat (u.preorder.map (w.lintGraph (w.knownNames t.preorder))) =
        (w.lintTree u).without (w.knownNames t.preorder) := by
    intro u hu
    have hsub : u.preorder ⊆ t.preorder := fun a ha =>
      List.mem_cons_of_mem _ (Forest.preorder_subset_of_mem_trees hu ha)
    exact concat_lintGraph_eq (knownNames_subset hsub)
  rw [← List.map_congr_left hcluster, lintTree]
  generalize w.knownNames t.preorder = known
  rw [Tree.preorder, List.map_cons, Report.concat, Forest.preorder_eq_flatMap_trees,
    List.map_flatMap, Report.concat_flatMap]
  rfl

/-! ## Faults -/

/-- The names that a graph lists twice are all the faults there are. -/
theorem errors_lintGraph (known : List String) (g : GraphId) :
    (w.lintGraph known g).errors =
      (w.duplicateNames g).map (.duplicateNode (w.graph g).name) := by
  have hset : ∀ c s, (w.lintSet c s).errors = [] := fun c s => errors_attrsFindings ..
  have hend : ∀ p, (w.lintEnd known p).errors = [] := by
    intro p
    rw [lintEnd]
    split <;> rfl
  have hedge : ∀ e, (w.lintEdge known e).errors = [] := by
    intro e
    simp only [lintEdge, Report.errors_append, hset, hend, List.append_nil]
  have hnodes : ((w.graph g).allNodes.flatMap fun n =>
      (w.lintSet .node (w.node n).attributes).errors) = [] :=
    List.flatMap_eq_nil_iff.2 fun n _ => hset ..
  have hedges : ((w.graph g).edges.flatMap fun e => (w.lintEdge known e).errors) = [] :=
    List.flatMap_eq_nil_iff.2 fun e _ => hedge e
  simp only [lintGraph, Report.errors_append, Report.errors_concat, List.flatMap_map]
  rw [hnodes, hedges]
  simp only [hset, List.append_nil]
  rfl

theorem duplicateNames_eq_nil_iff :
    w.duplicateNames g = [] ↔
      ∀ name ∈ (w.graph g).nodes.keys, name ∉ (w.graph g).htmlNodes.keys := by
  rw [duplicateNames, List.filter_eq_nil_iff]
  refine forall₂_congr fun name _ => not_congr ?_
  exact OrdMap.contains_iff ..

/-! ## All graphs of a tree -/

theorem errors_lintTree (t : Tree GraphId) :
    (w.lintTree t).errors = (w.duplicateNames t.root).map (.duplicateNode (w.graph t.root).name) ++
      t.below.trees.flatMap fun u => (w.lintTree u).errors := by
  rw [lintTree_eq, Report.errors_append, errors_lintGraph, Report.errors_concat, List.flatMap_map]
  rfl

theorem warnings_lintTree (t : Tree GraphId) :
    (w.lintTree t).warnings =
      t.preorder.flatMap fun g => (w.lintGraph (w.knownNames t.preorder) g).warnings := by
  rw [lintTree, Report.warnings_concat, List.flatMap_map]

/-- The warnings that a larger tree has on the graphs of a tree. -/
theorem flatMap_warnings_lintGraph {u : Tree GraphId} (h : w.knownNames u.preorder ⊆ known) :
    (u.preorder.flatMap fun g => (w.lintGraph known g).warnings) =
      (w.lintTree u).warnings.filter fun x => !x.misses known := by
  have hconcat := congrArg Report.warnings (concat_lintGraph_eq h)
  rwa [Report.warnings_concat, List.flatMap_map] at hconcat

/-- Lint goes through the tree that going down finds. -/
theorem Listed.lint_eq (hw : Listed w) {t : Tree GraphId} (hroot : w.madeGraph t.root = true)
    (ht : t.Unfolds w.clusterList) : w.lint t.root = .ok (w.lintTree t) := by
  rw [lint, hw.clusterTree?_of_unfolds hroot ht]

/-- **Lint is put together from the lint of the clusters.**  After every list of commands, for every
graph from which going down comes to an end, the faults are those of the graph itself and then those
of its clusters, and the warnings are those on the graph itself and then those that lint gives for
its clusters, but for the ends of edges whose names some graph of the tree lists.  So there are no
faults if the graph has none and its clusters have none; and what is warned of for a graph at any
depth is what lint of this graph alone warns of, with some of the lines on missing nodes left out
and none added. -/
theorem lint_is_compositional {cs : List Command} {t : Tree GraphId}
    (hroot : (empty.run cs).1.madeGraph t.root = true)
    (ht : t.Unfolds (empty.run cs).1.clusterList) :
    let w := (empty.run cs).1
    let known := w.knownNames t.preorder
    let own (g : GraphId) := (w.lintGraph known g).warnings
    let kept (found : Findings) := found.warnings.filter fun x => !x.misses known
    ∃ found : GraphId → Findings,
      (∀ g ∈ t.preorder, w.lint g = .ok (found g)) ∧
      (found t.root).errors =
        (w.duplicateNames t.root).map (.duplicateNode (w.graph t.root).name) ++
          (w.clusterList t.root).flatMap (fun c => (found c).errors) ∧
      (found t.root).warnings =
        own t.root ++ (w.clusterList t.root).flatMap (fun c => kept (found c)) ∧
      ((found t.root).ok = true ↔
        (∀ name ∈ (w.graph t.root).nodes.keys, name ∉ (w.graph t.root).htmlNodes.keys) ∧
          ∀ c ∈ w.clusterList t.root, (found c).ok = true) ∧
      ∀ g ∈ t.preorder, ∃ (u : Tree GraphId) (before after : List GraphId),
        (u.root = g ∧ u.Unfolds w.clusterList) ∧ t.preorder = before ++ u.preorder ++ after ∧
          (found t.root).warnings =
            before.flatMap own ++ kept (found g) ++ after.flatMap own := by
  intro w known own kept
  have hw : Listed w := listed_run cs
  let found (g : GraphId) : Findings := (w.lint g).toOption.getD .empty
  -- each graph of the tree has a tree of its own, and lint goes through this one
  have hlint : ∀ u : Tree GraphId, u.root ∈ t.preorder → u.Unfolds w.clusterList →
      w.lint u.root = .ok (w.lintTree u) := fun u hu =>
    hw.lint_eq (hw.madeGraph_of_mem_preorder hroot ht hu)
  have hfound : ∀ u : Tree GraphId, u.root ∈ t.preorder → u.Unfolds w.clusterList →
      found u.root = w.lintTree u := by
    intro u hu hunfolds
    simp only [found, hlint u hu hunfolds, Except.toOption, Option.getD_some]
  have hself : found t.root = w.lintTree t := hfound t (List.mem_cons_self ..) ht
  have hlisted : w.clusterList t.root = t.below.trees.map Tree.root := by
    rw [← ht.1, Forest.roots_eq_map_trees]
  have hbelow : ∀ u ∈ t.below.trees, found u.root = w.lintTree u := by
    intro u hu
    refine hfound u (List.mem_cons_of_mem _ ?_) (Forest.unfolds_of_mem_trees ht.2 hu)
    exact Forest.preorder_subset_of_mem_trees hu (List.mem_cons_self ..)
  have herrors : (found t.root).errors =
      (w.duplicateNames t.root).map (.duplicateNode (w.graph t.root).name) ++
        (w.clusterList t.root).flatMap fun c => (found c).errors := by
    rw [hself, errors_lintTree, hlisted, List.flatMap_map]
    refine congrArg _ (List.flatMap_congr fun u hu => ?_)
    rw [hbelow u hu]
  refine ⟨found, fun g hg => ?_, herrors, ?_, ?_, fun g hg => ?_⟩
  · obtain ⟨u, -, -, rfl, hu, -⟩ := Tree.exists_tree_of_mem_preorder ht hg
    rw [hlint u hg hu, hfound u hg hu]
  · rw [hself, lintTree_eq, Report.warnings_append, Report.warnings_concat, List.flatMap_map,
      hlisted, List.flatMap_map]
    refine congrArg _ (List.flatMap_congr fun u hu => ?_)
    rw [hbelow u hu]
    rfl
  · rw [Report.ok, herrors, List.isEmpty_iff, List.append_eq_nil_iff, List.map_eq_nil_iff,
      duplicateNames_eq_nil_iff, List.flatMap_eq_nil_iff]
    refine and_congr_right fun _ => forall₂_congr fun c _ => ?_
    rw [Report.ok, List.isEmpty_iff]
  · obtain ⟨u, before, after, rfl, hu, hsplit⟩ := Tree.exists_tree_of_mem_preorder ht hg
    refine ⟨u, before, after, ⟨rfl, hu⟩, hsplit, ?_⟩
    have hsub : u.preorder ⊆ t.preorder := by
      intro a ha
      rw [hsplit]
      exact List.mem_append_left _ (List.mem_append_right _ ha)
    have hkept : u.preorder.flatMap own = kept (w.lintTree u) :=
      flatMap_warnings_lintGraph (knownNames_subset hsub)
    have hall : (w.lintTree t).warnings = t.preorder.flatMap own := warnings_lintTree t
    rw [hself, hall, hsplit, List.flatMap_append, List.flatMap_append, hkept, hfound u hg hu]

/-- Lint of a cluster warns of two missing nodes, and lint of the graph around it of one of them,
because the graph lists a node with the name of the other. -/
theorem lint_is_compositional_cluster :
    let cs : List Command :=
      [.newGraph .undirected "g" false, .newGraph .undirected "c" false, .attach ⟨0⟩ ⟨1⟩,
        .addNode ⟨0⟩ "x" .empty, .newNode "x" none, .newNode "z" none,
        .addEdge ⟨1⟩ (.given (.plain ⟨.loose 0⟩)) (.given (.plain ⟨.loose 1⟩)) .empty,
        .addNode ⟨1⟩ "d" .empty, .addHtmlNode ⟨1⟩ "d" .empty]
    let w := (empty.run cs).1
    let t : Tree GraphId := ⟨⟨0⟩, .cons ⟨1⟩ .nil .nil⟩
    (w.madeGraph t.root = true ∧ t.Unfolds w.clusterList) ∧
      w.lint ⟨1⟩ = .ok ⟨[.duplicateNode "c" "d"], [.missingNode "x", .missingNode "z"]⟩ ∧
      w.lint ⟨0⟩ = .ok ⟨[.duplicateNode "c" "d"], [.missingNode "z"]⟩ := by
  intro cs w t
  have hroot : w.madeGraph t.root = true := rfl
  have ht : t.Unfolds w.clusterList := ⟨rfl, ⟨rfl, trivial, trivial⟩⟩
  have hcluster : w.lint ⟨1⟩ =
      .ok ⟨[.duplicateNode "c" "d"], [.missingNode "x", .missingNode "z"]⟩ := by rfl
  obtain ⟨found, hlint, herrors, hwarnings, -⟩ := lint_is_compositional hroot ht
  have hfound : found ⟨1⟩ =
      ⟨[.duplicateNode "c" "d"], [.missingNode "x", .missingNode "z"]⟩ :=
    (Except.ok.inj ((hlint ⟨1⟩ (by decide)).symm.trans hcluster))
  have hlisted : w.clusterList ⟨0⟩ = [⟨1⟩] := rfl
  refine ⟨⟨hroot, ht⟩, hcluster, ?_⟩
  rw [hlint ⟨0⟩ (by decide)]
  refine congrArg Except.ok (Report.ext ?_ ?_)
  · rw [herrors, hlisted, List.flatMap_singleton, hfound]
    rfl
  · rw [hwarnings, hlisted, List.flatMap_singleton, hfound]
    decide +kernel

end Workspace

end DotBuilder
