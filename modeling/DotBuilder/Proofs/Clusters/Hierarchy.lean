import DotBuilder.OrdMap.Lemmas
import DotBuilder.Proofs.Clusters.Lineage

/-!
# Clusters and parents

As long as no graph is named anew while it has a parent, the clusters that graphs list and the
parents that graphs have are two views of one thing: a graph is listed by its parent, under its own
name, and by no other graph.

* `Hierarchy` : the two views agree;
* `Hierarchy.attached` : also when attaching lets another graph go that had the name;
* `hierarchy_run` : they agree after all lists of commands that name no attached graph anew.
-/

namespace DotBuilder.Workspace

variable {w w' : Workspace} {g p c : GraphId} {name : String}

/-- A graph lists exactly its children as clusters, each under its own name. -/
structure Hierarchy (w : Workspace) : Prop extends Rooted w where
  get?_clusters (p c : GraphId) (name : String) :
    (w.graph p).clusters.get? name = some c ↔ w.ChildOf c p ∧ (w.graph c).name = name

/-- Only graphs without a parent are named anew. -/
def RenamesRoots (w : Workspace) : Command → Prop
  | .renameGraph g _ => (w.graph g).parent = none
  | _ => True

namespace Hierarchy

/-! ## Lists of clusters -/

theorem mem_entries_iff (hw : Hierarchy w) :
    (name, c) ∈ (w.graph p).clusters.entries ↔ w.ChildOf c p ∧ (w.graph c).name = name := by
  rw [OrdMap.mem_entries_iff, hw.get?_clusters]

theorem mem_clusterList_iff (hw : Hierarchy w) : c ∈ w.clusterList p ↔ w.ChildOf c p := by
  unfold clusterList OrdMap.values
  rw [List.mem_map]
  constructor
  · rintro ⟨⟨name, c⟩, h, rfl⟩
    exact (hw.mem_entries_iff.1 h).1
  · exact fun h => ⟨((w.graph c).name, c), hw.mem_entries_iff.2 ⟨h, rfl⟩, rfl⟩

theorem nodup_clusterList (hw : Hierarchy w) (p : GraphId) : (w.clusterList p).Nodup := by
  have hnames : (w.graph p).clusters.keys =
      ((w.graph p).clusters.values).map fun c => (w.graph c).name := by
    unfold OrdMap.keys OrdMap.values
    rw [List.map_map]
    refine List.map_congr_left ?_
    rintro ⟨name, c⟩ h
    exact (hw.mem_entries_iff.1 h).2.symm
  have hn := (w.graph p).clusters.nodup_keys
  rw [hnames] at hn
  exact List.Nodup.of_map _ hn

/-! ## What commands do -/

theorem of_sameFamilies (hw : Hierarchy w) (h : SameFamilies w w')
    (hr : Rooted w') : Hierarchy w' := by
  refine ⟨hr, fun p c name => ?_⟩
  rw [h.clusters, h.name, ChildOf, h.parent]
  exact hw.get?_clusters p c name

theorem newGraph (hw : Hierarchy w) (kind : Kind) (name : String) (strict : Bool) :
    Hierarchy (w.newGraph kind name strict).1 := by
  refine ⟨hw.toRooted.newGraph kind name strict, fun p c k => ?_⟩
  have hnot : ¬ w.madeGraph ⟨w.graphsMade⟩ = true := by simp [madeGraph]
  unfold ChildOf
  rw [graph_newGraph, graph_newGraph]
  by_cases hp : p = ⟨w.graphsMade⟩
  · have hno : ∀ d : GraphId, ¬ w.ChildOf d p := fun d h => hnot (hp ▸ hw.made_parent h)
    by_cases hc : c = ⟨w.graphsMade⟩
    · simp [hp, hc, Graph.blank, OrdMap.get?_empty]
    · rw [if_pos hp, if_neg hc]
      simp only [Graph.blank, OrdMap.get?_empty]
      constructor
      · intro h
        cases h
      · exact fun h => absurd h.1 (hno c)
  · rw [if_neg hp]
    by_cases hc : c = ⟨w.graphsMade⟩
    · rw [if_pos hc, hw.get?_clusters]
      constructor
      · exact fun h => absurd (hc ▸ hw.made_child h.1) hnot
      · rintro ⟨⟨⟩, -⟩
    · rw [if_neg hc]
      exact hw.get?_clusters p c k

theorem renameGraph (hw : Hierarchy w) (hg : (w.graph g).parent = none)
    (hr : Rooted (w.renameGraph g name)) : Hierarchy (w.renameGraph g name) := by
  refine ⟨hr, fun p c k => ?_⟩
  have hclusters : ((w.renameGraph g name).graph p).clusters = (w.graph p).clusters := by
    unfold Workspace.renameGraph
    rw [graph_modifyGraph]
    by_cases hp : p = g <;> simp [hp]
  rw [hclusters, hw.get?_clusters]
  unfold ChildOf Workspace.renameGraph
  rw [graph_modifyGraph]
  by_cases hc : c = g
  · simp [hc, hg]
  · rw [if_neg hc]

/-- Attaching keeps both views in step: the one graph that loses its place in the list loses its
parent too. -/
theorem attached (hw : Hierarchy w) {parent child : GraphId} (hp : w.madeGraph parent = true)
    (hc : w.madeGraph child = true) (h : w.attachError? parent child = none) :
    Hierarchy (w.attached parent child) := by
  refine ⟨hw.toRooted.attached hp hc h, fun q d k => ?_⟩
  have hparent : (w.graph child).parent = none ∨ (w.graph child).parent = some parent :=
    (attachError?_eq_none_iff.1 h).2.1
  unfold ChildOf
  rw [parent_attached, name_attached, clusters_attached]
  by_cases hd : d = child
  · -- the child is listed by its parent under its name, and nowhere else
    subst hd
    rw [if_pos rfl]
    by_cases hq : q = parent
    · subst hq
      rw [if_pos rfl, OrdMap.get?_insert]
      by_cases hk : (w.graph d).name = k
      · simp [hk]
      · rw [if_neg hk, hw.get?_clusters]
        exact ⟨fun h => absurd h.2 hk, fun h => absurd h.2 hk⟩
    · rw [if_neg hq, hw.get?_clusters]
      constructor
      · rintro ⟨hdq, -⟩
        rcases hparent with hn | hs
        · exact absurd (hdq.symm.trans hn) (by simp)
        · exact absurd (Option.some.inj (hdq.symm.trans hs)) hq
      · exact fun h => absurd (Option.some.inj h.1).symm hq
  · rw [if_neg hd]
    by_cases ho : (w.graph parent).clusters.get? (w.graph child).name = some d
    · -- the graph that had the child's place is listed no longer
      obtain ⟨hdp, hdn⟩ := (hw.get?_clusters parent d _).1 ho
      rw [if_pos ho]
      constructor
      · intro hl
        by_cases hq : q = parent
        · rw [if_pos hq, OrdMap.get?_insert] at hl
          by_cases hk : (w.graph child).name = k
          · rw [if_pos hk] at hl
            exact absurd (Option.some.inj hl).symm hd
          · rw [if_neg hk, hw.get?_clusters] at hl
            exact absurd (hdn.symm.trans hl.2) hk
        · rw [if_neg hq, hw.get?_clusters] at hl
          exact absurd (w.rightUnique_childOf hl.1 hdp) hq
      · rintro ⟨⟨⟩, -⟩
    · rw [if_neg ho]
      by_cases hq : q = parent
      · subst hq
        rw [if_pos rfl, OrdMap.get?_insert]
        by_cases hk : (w.graph child).name = k
        · subst hk
          rw [if_pos rfl]
          refine ⟨fun h => absurd (Option.some.inj h).symm hd, fun h => ?_⟩
          exact absurd ((hw.get?_clusters q d _).2 h) ho
        · rw [if_neg hk]
          exact hw.get?_clusters q d k
      · rw [if_neg hq]
        exact hw.get?_clusters q d k

/-- **Every command that names no attached graph anew keeps the two views in step.** -/
theorem step (hw : Hierarchy w) {c : Command} (hc : w.RenamesRoots c) :
    Hierarchy (w.step c).1 := by
  have hr : Rooted (w.step c).1 := hw.toRooted.step c
  generalize hw' : (w.step c).1 = w' at hr
  have hf : w.FamilyChange c w' := hw' ▸ (w.step_effect c).family
  cases hf with
  | same h => exact hw.of_sameFamilies h hr
  | newGraph kind name strict => exact hw.newGraph kind name strict
  | renameGraph name hg => exact hw.renameGraph hc hr
  | attach hp hm h => exact hw.attached hp hm h

end Hierarchy

theorem hierarchy_empty : Hierarchy empty := by
  refine ⟨rooted_empty, fun p c name => ?_⟩
  constructor
  · intro h
    cases h
  · rintro ⟨⟨⟩, -⟩

theorem hierarchy_run {cs : List Command} (h : empty.Obeys RenamesRoots cs) :
    Hierarchy (empty.run cs).1 :=
  run_invariant (fun _ _ hw hc => hw.step hc) hierarchy_empty h

end DotBuilder.Workspace
