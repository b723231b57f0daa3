import DotBuilder.Proofs.Clusters.Hierarchy

/-!
# The tree below a graph

Printing and linting a graph go down from it to its clusters, to theirs, and so on.  The tree of the
graphs that they come to is finite after all lists of commands that name no attached graph anew, and
has no graph twice.

* `Forest.Unfolds`, `Tree.Unfolds` : under each root stand the things that it lists, in order;
* `Tree.eq_of_unfolds` : there is at most one such tree, so that the going down ends exactly where
  there is one;
* `clusterTreeWithin?_unfolds`, `Hierarchy.exists_clusterTree` : the tree of the clusters is it, and
  its bound on levels cuts nothing off;
* `Hierarchy.nodup_preorder`, `clusters_form_forest` : each graph of the tree is come to once.
-/

namespace DotBuilder

open Relation

/-! ## Trees of listed things -/

section Unfolding

variable {α : Type} {lists : α → List α} {a : α}

namespace Forest

/-- The roots of the trees of a forest. -/
def roots : Forest α → List α
  | nil => []
  | cons root _ rest => root :: rest.roots

/-- Under each root of a forest, at any depth, stand the things that it lists, in order. -/
def Unfolds (lists : α → List α) : Forest α → Prop
  | nil => True
  | cons root below rest => below.roots = lists root ∧ below.Unfolds lists ∧ rest.Unfolds lists

theorem roots_ofTrees (ts : List (Tree α)) : (ofTrees ts).roots = ts.map Tree.root := by
  induction ts with
  | nil => rfl
  | cons t ts ih => rw [ofTrees, roots, ih, List.map_cons]

theorem eq_of_unfolds {F G : Forest α} (hF : F.Unfolds lists) (hG : G.Unfolds lists)
    (h : F.roots = G.roots) : F = G := by
  induction F generalizing G with
  | nil =>
    cases G with
    | nil => rfl
    | cons root below rest => cases h
  | cons root below rest ihb ihr =>
    cases G with
    | nil => cases h
    | cons root' below' rest' =>
      obtain ⟨rfl, hrest⟩ := List.cons.inj h
      rw [ihb hF.2.1 hG.2.1 (hF.1.trans hG.1.symm), ihr hF.2.2 hG.2.2 hrest]

/-- What stands in a forest is what its roots lead to. -/
theorem mem_preorder_iff {F : Forest α} (hF : F.Unfolds lists) :
    a ∈ F.preorder ↔ ∃ r ∈ F.roots, ReflTransGen (fun x y => x ∈ lists y) a r := by
  induction F with
  | nil => simp [preorder, roots]
  | cons root below rest ihb ihr =>
    obtain ⟨hroots, hbelow, hrest⟩ := hF
    have hroot : a = root ∨ a ∈ below.preorder ↔
        ReflTransGen (fun x y => x ∈ lists y) a root := by
      rw [ihb hbelow, hroots]
      constructor
      · rintro (rfl | ⟨r, hr, h⟩)
        · exact .refl
        · exact h.tail hr
      · intro h
        rcases h.cases_tail with h | ⟨r, h, hr⟩
        · exact .inl h.symm
        · exact .inr ⟨r, hr, h⟩
    simp only [preorder, roots, List.mem_cons, List.mem_append, ← or_assoc, hroot, ihr hrest,
      or_and_right, exists_or, exists_eq_left]

end Forest

namespace Tree

/-- Under each root of a tree, at any depth, stand the things that it lists, in order. -/
def Unfolds (lists : α → List α) (t : Tree α) : Prop :=
  t.below.roots = lists t.root ∧ t.below.Unfolds lists

theorem unfolds_ofTrees {ts : List (Tree α)} (h : ∀ t ∈ ts, t.Unfolds lists) :
    (Forest.ofTrees ts).Unfolds lists := by
  induction ts with
  | nil => trivial
  | cons t ts ih =>
    have ht : t.Unfolds lists := h t (List.mem_cons_self ..)
    exact ⟨ht.1, ht.2, ih fun u hu => h u (List.mem_cons_of_mem _ hu)⟩

/-- There is one way at most to go down from a thing. -/
theorem eq_of_unfolds {t u : Tree α} (ht : t.Unfolds lists) (hu : u.Unfolds lists)
    (h : t.root = u.root) : t = u := by
  obtain ⟨root, below⟩ := t
  obtain ⟨root', below'⟩ := u
  cases h
  have hb : below = below' := Forest.eq_of_unfolds ht.2 hu.2 (ht.1.trans hu.1.symm)
  rw [hb]

theorem mem_preorder_iff {t : Tree α} (ht : t.Unfolds lists) :
    a ∈ t.preorder ↔ ReflTransGen (fun x y => x ∈ lists y) a t.root := by
  have hF : (Forest.cons t.root t.below .nil).Unfolds lists := ⟨ht.1, ht.2, trivial⟩
  have h := Forest.mem_preorder_iff (a := a) hF
  simpa [Forest.preorder, Forest.roots, preorder] using h

end Tree

theorem mapM_cons_eq_some_iff {β : Type} {f : α → Option β} {x : α} {xs : List α} {zs : List β} :
    (x :: xs).mapM f = some zs ↔ ∃ y ys, f x = some y ∧ xs.mapM f = some ys ∧ zs = y :: ys := by
  rw [List.mapM_cons]
  constructor
  · intro h
    obtain ⟨y, hy, h⟩ := Option.bind_eq_some_iff.1 h
    obtain ⟨ys, hys, h⟩ := Option.bind_eq_some_iff.1 h
    exact ⟨y, ys, hy, hys, (Option.some.inj h).symm⟩
  · rintro ⟨y, ys, hy, hys, rfl⟩
    rw [hy, hys]
    rfl

/-- A function that undoes `f` undoes going through a list with `f`. -/
theorem map_of_mapM {β : Type} {f : α → Option β} {k : β → α} {xs : List α} {ys : List β}
    (hk : ∀ x y, f x = some y → k y = x) (h : xs.mapM f = some ys) : ys.map k = xs := by
  induction xs generalizing ys with
  | nil =>
    cases h
    rfl
  | cons x xs ih =>
    obtain ⟨y, ys, hy, hys, rfl⟩ := mapM_cons_eq_some_iff.1 h
    rw [List.map_cons, hk x y hy, ih hys]

theorem exists_of_mem_mapM {β : Type} {f : α → Option β} {xs : List α} {ys : List β} {y : β}
    (h : xs.mapM f = some ys) (hy : y ∈ ys) : ∃ x ∈ xs, f x = some y := by
  induction xs generalizing ys with
  | nil =>
    cases h
    cases hy
  | cons x xs ih =>
    obtain ⟨z, zs, hz, hzs, rfl⟩ := mapM_cons_eq_some_iff.1 h
    rcases List.mem_cons.1 hy with rfl | hy
    · exact ⟨x, List.mem_cons_self .., hz⟩
    · obtain ⟨x', hx', hf⟩ := ih hzs hy
      exact ⟨x', List.mem_cons_of_mem _ hx', hf⟩

theorem exists_mapM {β : Type} {f : α → Option β} {xs : List α}
    (h : ∀ x ∈ xs, ∃ y, f x = some y) : ∃ ys, xs.mapM f = some ys := by
  induction xs with
  | nil => exact ⟨[], rfl⟩
  | cons x xs ih =>
    obtain ⟨y, hy⟩ := h x (List.mem_cons_self ..)
    obtain ⟨ys, hys⟩ := ih fun z hz => h z (List.mem_cons_of_mem _ hz)
    exact ⟨y :: ys, mapM_cons_eq_some_iff.2 ⟨y, ys, hy, hys, rfl⟩⟩

end Unfolding

namespace Workspace

variable {w : Workspace} {g p : GraphId}

/-! ## The tree of the clusters -/

/-- The tree of the clusters goes down to exactly what is listed. -/
theorem clusterTreeWithin?_unfolds {levels : Nat} {t : Tree GraphId}
    (h : w.clusterTreeWithin? levels g = some t) : t.root = g ∧ t.Unfolds w.clusterList := by
  induction levels generalizing g t with
  | zero => cases h
  | succ levels ih =>
    obtain ⟨ts, hts, rfl⟩ := Option.map_eq_some_iff.1 h
    have hroots : ts.map Tree.root = w.clusterList g := map_of_mapM (fun c t hc => (ih hc).1) hts
    have hunfolds : ∀ t ∈ ts, t.Unfolds w.clusterList := by
      intro t ht
      obtain ⟨c, -, hc⟩ := exists_of_mem_mapM hts ht
      exact (ih hc).2
    exact ⟨rfl, (Forest.roots_ofTrees ts).trans hroots, Tree.unfolds_ofTrees hunfolds⟩

namespace Hierarchy

/-- Going down a level makes the lineage longer, and there are only so many graphs. -/
theorem exists_clusterTreeWithin (hw : Hierarchy w) {levels : Nat} (hg : w.madeGraph g = true)
    (h : w.graphsMade < (w.lineage g).length + levels) :
    ∃ t, w.clusterTreeWithin? levels g = some t := by
  induction levels generalizing g with
  | zero => exact absurd h (Nat.not_lt.2 (hw.length_lineageFrom_le hg _))
  | succ levels ih =>
    have hbelow : ∀ c ∈ w.clusterList g, ∃ t, w.clusterTreeWithin? levels c = some t := by
      intro c hc
      have hcg : w.ChildOf c g := hw.mem_clusterList_iff.1 hc
      refine ih (hw.made_child hcg) ?_
      rw [hw.lineage_of_childOf hcg, List.length_cons]
      omega
    obtain ⟨ts, hts⟩ := exists_mapM hbelow
    exact ⟨⟨g, .ofTrees ts⟩, by rw [clusterTreeWithin?, hts]; rfl⟩

/-- **Going down from a graph comes to an end.** -/
theorem exists_clusterTree (hw : Hierarchy w) (hg : w.madeGraph g = true) :
    ∃ t, w.clusterTree? g = some t ∧ t.root = g ∧ t.Unfolds w.clusterList := by
  have hmem : g ∈ w.lineage g := (hw.mem_lineage_iff hg).2 .refl
  have hlen : 0 < (w.lineage g).length := List.length_pos_of_mem hmem
  have hlt : w.graphsMade < (w.lineage g).length + w.graphsMade := by omega
  obtain ⟨t, ht⟩ := hw.exists_clusterTreeWithin hg hlt
  exact ⟨t, ht, clusterTreeWithin?_unfolds ht⟩

theorem mem_clusterList_eq_childOf (hw : Hierarchy w) :
    (fun c p => c ∈ w.clusterList p) = w.ChildOf :=
  funext₂ fun _ _ => propext hw.mem_clusterList_iff

theorem mem_preorder_iff (hw : Hierarchy w) {t : Tree GraphId} (ht : t.Unfolds w.clusterList)
    {a : GraphId} : a ∈ t.preorder ↔ ReflTransGen w.ChildOf a t.root := by
  rw [Tree.mem_preorder_iff ht, hw.mem_clusterList_eq_childOf]

/-- What is below one of two children of a graph is not below the other. -/
theorem eq_of_common_descendant (hw : Hierarchy w) {a r s : GraphId} (hr : w.ChildOf r p)
    (hs : w.ChildOf s p) (har : ReflTransGen w.ChildOf a r) (has : ReflTransGen w.ChildOf a s) :
    r = s := by
  have no_chain : ∀ {x y : GraphId}, w.ChildOf x p → w.ChildOf y p →
      ReflTransGen w.ChildOf x y → x = y := by
    intro x y hx hy hxy
    rcases hxy.cases_head with h | ⟨q, hq, hqy⟩
    · exact h
    · have hqp : q = p := w.rightUnique_childOf hq hx
      exact absurd (TransGen.tail' (hqp ▸ hqy) hy) (hw.acyclic p)
  rcases ReflTransGen.total_of_right_unique w.rightUnique_childOf har has with h | h
  · exact no_chain hr hs h
  · exact (no_chain hs hr h).symm

/-- The trees below a graph have no graph twice and none in common. -/
theorem nodup_preorder_forest (hw : Hierarchy w) {F : Forest GraphId}
    (hF : F.Unfolds w.clusterList) (hn : F.roots.Nodup) (hp : ∀ r ∈ F.roots, w.ChildOf r p) :
    F.preorder.Nodup := by
  induction F generalizing p with
  | nil => exact List.nodup_nil
  | cons root below rest ihb ihr =>
    obtain ⟨hroots, hbelow, hrest⟩ := hF
    have hroot : w.ChildOf root p := hp root (List.mem_cons_self ..)
    have hn' := List.nodup_cons.1 hn
    have below_root : ∀ a ∈ below.preorder, TransGen w.ChildOf a root := by
      intro a ha
      rw [Forest.mem_preorder_iff hbelow, hw.mem_clusterList_eq_childOf, hroots] at ha
      obtain ⟨r, hr, har⟩ := ha
      exact .tail' har (hw.mem_clusterList_iff.1 hr)
    have not_rest : ∀ a, ReflTransGen w.ChildOf a root → a ∉ rest.preorder := by
      intro a ha har
      rw [Forest.mem_preorder_iff hrest, hw.mem_clusterList_eq_childOf] at har
      obtain ⟨s, hs, has⟩ := har
      have hrs : root = s :=
        hw.eq_of_common_descendant hroot (hp s (List.mem_cons_of_mem _ hs)) ha has
      exact hn'.1 (hrs ▸ hs)
    have hb : below.preorder.Nodup := by
      refine ihb hbelow (hroots ▸ hw.nodup_clusterList root) (p := root) ?_
      exact fun r hr => hw.mem_clusterList_iff.1 (hroots ▸ hr)
    have hr : rest.preorder.Nodup :=
      ihr hrest hn'.2 fun s hs => hp s (List.mem_cons_of_mem _ hs)
    rw [Forest.preorder, List.nodup_cons, List.mem_append]
    refine ⟨?_, List.nodup_append.2 ⟨hb, hr, ?_⟩⟩
    · rintro (h | h)
      · exact hw.acyclic root (below_root root h)
      · exact not_rest root .refl h
    · intro a ha b hb' hab
      exact not_rest a (below_root a ha).to_reflTransGen (hab ▸ hb')

theorem nodup_preorder (hw : Hierarchy w) {t : Tree GraphId} (ht : t.Unfolds w.clusterList) :
    t.preorder.Nodup := by
  rw [Tree.preorder, List.nodup_cons]
  constructor
  · intro h
    rw [Forest.mem_preorder_iff ht.2, hw.mem_clusterList_eq_childOf, ht.1] at h
    obtain ⟨r, hr, h⟩ := h
    exact hw.acyclic t.root (.tail' h (hw.mem_clusterList_iff.1 hr))
  · refine hw.nodup_preorder_forest ht.2 (ht.1 ▸ hw.nodup_clusterList t.root) (p := t.root) ?_
    exact fun r hr => hw.mem_clusterList_iff.1 (ht.1 ▸ hr)

end Hierarchy

/-! ## The forest of all graphs -/

/-- **Graphs and their clusters form a forest.**  After every list of commands that names no
attached graph anew, a graph is listed as a cluster by its parent and by no other graph, once and
under its own name; following parents never leads back; and going down from a graph, as printing
and linting do, comes to an end and to each graph below it once. -/
theorem clusters_form_forest {cs : List Command} (h : empty.Obeys RenamesRoots cs) :
    let w := (empty.run cs).1
    (∀ p c name, (name, c) ∈ (w.graph p).clusters.entries ↔
      (w.graph c).parent = some p ∧ (w.graph c).name = name) ∧
    (∀ p c, (w.graph c).parent = some p → (w.clusterList p).count c = 1) ∧
    (∀ p q c, c ∈ w.clusterList p → c ∈ w.clusterList q → p = q) ∧
    (∀ g, ¬ TransGen (fun c p => (w.graph c).parent = some p) g g) ∧
    ∀ g, w.madeGraph g = true → ∃ t : Tree GraphId,
      (t.root = g ∧ t.Unfolds w.clusterList) ∧ t.preorder.Nodup ∧
      (∀ a, a ∈ t.preorder ↔ ReflTransGen (fun c p => (w.graph c).parent = some p) a g) ∧
      w.dotText g = .ok (Outline.text (t.map w.sectionOf)) ∧ w.lint g = .ok (w.lintTree t) := by
  intro w
  have hw : Hierarchy w := hierarchy_run h
  refine ⟨fun p c name => hw.mem_entries_iff, fun p c hc => ?_, fun p q c hp hq => ?_,
    hw.acyclic, fun g hg => ?_⟩
  · exact List.count_eq_one_of_mem (hw.nodup_clusterList p) (hw.mem_clusterList_iff.2 hc)
  · exact w.rightUnique_childOf (hw.mem_clusterList_iff.1 hp) (hw.mem_clusterList_iff.1 hq)
  · obtain ⟨t, ht, rfl, hu⟩ := hw.exists_clusterTree hg
    refine ⟨t, ⟨rfl, hu⟩, hw.nodup_preorder hu, fun a => hw.mem_preorder_iff hu, ?_, ?_⟩
    · rw [dotText, outline?, ht]
      rfl
    · rw [lint, ht]

/-- A cluster that loses its place to another of the same name, takes a new name, and is attached
below the other. -/
theorem clusters_form_forest_replaced :
    let cs : List Command :=
      [.newGraph .undirected "a" false, .newGraph .undirected "b" false,
        .newGraph .undirected "b" false, .attach ⟨0⟩ ⟨1⟩, .attach ⟨0⟩ ⟨2⟩,
        .renameGraph ⟨1⟩ "c", .attach ⟨2⟩ ⟨1⟩]
    let w := (empty.run cs).1
    empty.Obeys RenamesRoots cs ∧ (w.clusterList ⟨2⟩).count ⟨1⟩ = 1 ∧
      (∀ p, ⟨1⟩ ∈ w.clusterList p → p = ⟨2⟩) ∧
      ∃ t : Tree GraphId, t.preorder.Nodup ∧ t.preorder = [⟨0⟩, ⟨2⟩, ⟨1⟩] ∧
        w.dotText ⟨0⟩ = .ok (Outline.text (t.map w.sectionOf)) ∧
        w.lint ⟨0⟩ = .ok (w.lintTree t) := by
  intro cs w
  have hcs : empty.Obeys RenamesRoots cs := by
    refine ⟨trivial, trivial, trivial, trivial, trivial, ?_, trivial, trivial⟩
    rfl
  obtain ⟨-, hcount, hone, -, htree⟩ := clusters_form_forest hcs
  refine ⟨hcs, hcount ⟨2⟩ ⟨1⟩ rfl, fun p hp => ?_, ?_⟩
  · have h2 : (⟨1⟩ : GraphId) ∈ w.clusterList ⟨2⟩ := List.mem_singleton.2 rfl
    exact hone p ⟨2⟩ ⟨1⟩ hp h2
  · obtain ⟨t, ⟨hroot, hu⟩, hnodup, -, hdot, hlint⟩ := htree ⟨0⟩ rfl
    let u : Tree GraphId := ⟨⟨0⟩, .cons ⟨2⟩ (.cons ⟨1⟩ .nil .nil) .nil⟩
    have huu : u.Unfolds w.clusterList := ⟨rfl, ⟨rfl, ⟨rfl, trivial, trivial⟩, trivial⟩⟩
    have htu : t = u := Tree.eq_of_unfolds hu huu hroot
    exact ⟨t, hnodup, congrArg Tree.preorder htu, hdot, hlint⟩

end Workspace

end DotBuilder
