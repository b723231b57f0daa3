import DotBuilder.Proofs.Clusters.Listed
import DotBuilder.Proofs.Clusters.Unfolding

/-!
# Going down ends where there is a tree

When graphs are named anew while they are listed, clusters can come to contain each other, and then
going down from a graph does not end.  Where it ends there is a tree of what it comes to, and this
tree is found: a graph is never below itself in a tree, so no way down is longer than there are
graphs.

* `Tree.root_notMem_below` : what stands at the root of a tree does not stand below;
* `Listed.clusterTree?_of_unfolds` : the bound on the levels of a tree cuts nothing off.
-/

namespace DotBuilder

/-! ## Trees of listed things -/

section Unfolding

variable {α β : Type} {lists : α → List α} {a : α}

namespace Forest

theorem roots_eq_map_trees (F : Forest α) : F.roots = F.trees.map Tree.root := by
  induction F with
  | nil => rfl
  | cons root below rest _ ih => rw [roots, trees, List.map_cons, ih]

theorem unfolds_of_mem_trees {F : Forest α} (hF : F.Unfolds lists) {t : Tree α}
    (ht : t ∈ F.trees) : t.Unfolds lists := by
  induction F with
  | nil => cases ht
  | cons root below rest _ ih =>
    rcases List.mem_cons.1 ht with rfl | ht
    · exact ⟨hF.1, hF.2.1⟩
    · exact ih hF.2.2 ht

theorem preorder_subset_of_mem_trees {F : Forest α} {t : Tree α} (ht : t ∈ F.trees) :
    t.preorder ⊆ F.preorder := by
  induction F with
  | nil => cases ht
  | cons root below rest _ ih =>
    intro a ha
    rw [preorder]
    rcases List.mem_cons.1 ht with rfl | ht
    · exact List.mem_append_left rest.preorder ha
    · exact List.mem_cons_of_mem _ (List.mem_append_right _ (ih ht ha))

/-- What stands in a forest has a tree of its own there, whose things are come to one after the
other. -/
theorem exists_tree_of_mem_preorder {F : Forest α} (hF : F.Unfolds lists) (ha : a ∈ F.preorder) :
    ∃ (t : Tree α) (before after : List α), t.root = a ∧ t.Unfolds lists ∧
      F.preorder = before ++ t.preorder ++ after := by
  induction F with
  | nil => cases ha
  | cons root below rest ihb ihr =>
    obtain ⟨hroots, hbelow, hrest⟩ := hF
    simp only [preorder, List.mem_cons, List.mem_append] at ha ⊢
    rcases ha with rfl | ha | ha
    · exact ⟨⟨a, below⟩, [], rest.preorder, rfl, ⟨hroots, hbelow⟩, rfl⟩
    · obtain ⟨t, before, after, hroot, ht, h⟩ := ihb hbelow ha
      exact ⟨t, root :: before, after ++ rest.preorder, hroot, ht, by simp [h]⟩
    · obtain ⟨t, before, after, hroot, ht, h⟩ := ihr hrest ha
      exact ⟨t, root :: (below.preorder ++ before), after, hroot, ht, by simp [h]⟩

end Forest

/-- A thing that stood below itself would have a tree smaller than its own. -/
theorem Tree.root_notMem_below {t : Tree α} (ht : t.Unfolds lists) :
    t.root ∉ t.below.preorder := by
  intro h
  obtain ⟨u, before, after, hroot, hu, hsplit⟩ := Forest.exists_tree_of_mem_preorder ht.2 h
  have hlength := congrArg List.length hsplit
  rw [Tree.eq_of_unfolds hu ht hroot, Tree.preorder, List.length_append, List.length_append,
    List.length_cons] at hlength
  omega

/-- What stands in a tree has a tree of its own there, whose things are come to one after the
other. -/
theorem Tree.exists_tree_of_mem_preorder {t : Tree α} (ht : t.Unfolds lists)
    (ha : a ∈ t.preorder) : ∃ (u : Tree α) (before after : List α), u.root = a ∧
      u.Unfolds lists ∧ t.preorder = before ++ u.preorder ++ after := by
  rcases List.mem_cons.1 ha with rfl | ha
  · exact ⟨t, [], [], rfl, ht, (List.append_nil _).symm⟩
  · obtain ⟨u, before, after, hroot, hu, h⟩ := Forest.exists_tree_of_mem_preorder ht.2 ha
    exact ⟨u, t.root :: before, after, hroot, hu, by simp [preorder, h]⟩

theorem mapM_map_eq_some {f : α → Option β} {k : β → α} {ys : List β}
    (h : ∀ y ∈ ys, f (k y) = some y) : (ys.map k).mapM f = some ys := by
  induction ys with
  | nil => rfl
  | cons y ys ih =>
    have hys := ih fun z hz => h z (List.mem_cons_of_mem _ hz)
    exact mapM_cons_eq_some_iff.2 ⟨y, ys, h y (List.mem_cons_self ..), hys, rfl⟩

end Unfolding

namespace Workspace.Listed

variable {w : Workspace}

/-- Of two graphs on a way down neither is the other, so that the levels suffice if there are as
many as graphs that are not above. -/
theorem clusterTreeWithin?_of_unfolds (hw : Listed w) {levels : Nat} {t : Tree GraphId}
    {above : List GraphId} (ht : t.Unfolds w.clusterList) (hnodup : (t.root :: above).Nodup)
    (hmade : ∀ a ∈ t.root :: above, w.madeGraph a = true) (hbelow : ∀ a ∈ above, a ∉ t.preorder)
    (h : w.graphsMade ≤ above.length + levels) : w.clusterTreeWithin? levels t.root = some t := by
  induction levels generalizing t above with
  | zero =>
    have hlength := length_le_graphsMade hnodup hmade
    rw [List.length_cons] at hlength
    omega
  | succ levels ih =>
    have hroot : t.root ∉ t.below.preorder := Tree.root_notMem_below ht
    have hchild : ∀ u ∈ t.below.trees, w.clusterTreeWithin? levels u.root = some u := by
      intro u hu
      have hsub : u.preorder ⊆ t.below.preorder := Forest.preorder_subset_of_mem_trees hu
      have habove : ∀ a ∈ t.root :: above, a ∉ u.preorder := by
        intro a ha hau
        rcases List.mem_cons.1 ha with rfl | ha
        · exact hroot (hsub hau)
        · exact hbelow a ha (List.mem_cons_of_mem _ (hsub hau))
      have hlisted : u.root ∈ w.clusterList t.root := by
        rw [← ht.1, Forest.roots_eq_map_trees]
        exact List.mem_map_of_mem hu
      refine ih (Forest.unfolds_of_mem_trees ht.2 hu) ?_ ?_ habove ?_
      · exact List.nodup_cons.2 ⟨fun hmem => habove _ hmem (List.mem_cons_self ..), hnodup⟩
      · exact List.forall_mem_cons.2 ⟨hw.made_listed hlisted, hmade⟩
      · rw [List.length_cons]
        omega
    rw [clusterTreeWithin?, ← ht.1, Forest.roots_eq_map_trees, mapM_map_eq_some hchild,
      Option.map_some, Forest.ofTrees_trees]

/-- **Where going down ends it finds what there is.** -/
theorem clusterTree?_of_unfolds (hw : Listed w) {t : Tree GraphId}
    (hroot : w.madeGraph t.root = true) (ht : t.Unfolds w.clusterList) :
    w.clusterTree? t.root = some t := by
  refine hw.clusterTreeWithin?_of_unfolds ht (List.nodup_singleton _) ?_ ?_ ?_
  · exact List.forall_mem_singleton.2 hroot
  · exact fun a ha => nomatch ha
  · exact Nat.le_of_eq (Nat.zero_add _).symm

/-- The graphs in the tree below a graph were made. -/
theorem madeGraph_of_mem_preorder (hw : Listed w) {t : Tree GraphId}
    (hroot : w.madeGraph t.root = true) (ht : t.Unfolds w.clusterList) {a : GraphId}
    (ha : a ∈ t.preorder) : w.madeGraph a = true := by
  rcases ((Tree.mem_preorder_iff ht).1 ha).cases_head with rfl | ⟨p, hp, -⟩
  · exact hroot
  · exact hw.made_listed hp

end Workspace.Listed

end DotBuilder
