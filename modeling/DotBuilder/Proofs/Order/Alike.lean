import DotBuilder.Proofs.Order.Agree

/-!
# Workspaces that are alike

Two workspaces are alike if the same was made in both, under other identifiers.  They stay alike
when commands are tried in both, and the texts and the lint of their graphs are the same.

* `Alike` : all cells of what was made match;
* `Alike.step`, `Alike.run` : after commands under the other identifiers workspaces are still alike;
* `Alike.shown_eq` : what is shown of a graph is the same.
-/

namespace DotBuilder.Workspace

variable {σ τ : Relabel} {w v u : Workspace} {c : Command} {g : GraphId} {k : Cell}

/-- The same was made in two workspaces, under other identifiers. -/
structure Alike (σ : Relabel) (w v : Workspace) : Prop where
  count (s : Series) : v.count s = w.count s
  /-- What is made next has the same number. -/
  fixes (s : Series) (i : Nat) (hi : w.count s ≤ i) : σ s i = i
  content (k : Cell) (hk : w.made k.owner = true) : Matches σ k w v

/-- What a command overwrites belongs to things that were made, if what it refers to was. -/
theorem made_of_mem_overwrites (hw : Built w) (hmade : ∀ o ∈ c.mentions, w.made o = true)
    (hk : k ∈ w.overwrites c) : w.made k.owner = true := by
  have hset : ∀ s, w.madeSet s = true → w.made s.maker = true := fun s h =>
    (made_maker w (.set s)).trans h
  cases c with
  | newHtmlNode name attributes =>
    obtain ⟨s, hs, rfl⟩ := List.mem_map.1 hk
    exact hset s (hmade (.set s) (List.mem_map_of_mem hs))
  | setStrict s strict =>
    obtain rfl := List.mem_singleton.1 hk
    exact hset s (hmade (.set s) (List.mem_cons_self ..))
  | assign o given =>
    obtain rfl := List.mem_singleton.1 hk
    exact hset _ (hw.owned.madeSet_setOf (hmade o (List.mem_cons_self ..)))
  | addNode | addHtmlNode | addEdge | addRow | setTable | setPort | assignDefaults | renameGraph
  | renameNode | setGraphStrict =>
    obtain rfl := List.mem_singleton.1 hk
    exact hmade _ (List.mem_cons_self ..)
  | removeNode g name force =>
    have hg := hmade (.graph g) (List.mem_cons_self ..)
    simp only [overwrites, List.mem_append, List.mem_cons, List.not_mem_nil, or_false] at hk
    rcases hk with (rfl | rfl) | hk
    · exact hg
    · exact hg
    · cases force with
      | false => cases hk
      | true =>
        obtain rfl := List.mem_singleton.1 hk
        exact hg
  | attach parent child =>
    rcases mem_overwrites_attach hk with rfl | rfl | ⟨old, hold, rfl⟩
    · exact hmade (.graph parent) (List.mem_cons_self ..)
    · exact hmade (.graph child) (List.mem_cons_of_mem _ (List.mem_cons_self ..))
    · exact hw.made_listed (mem_clusterList_iff_get?.2 ⟨_, hold⟩)
  | _ => cases hk

theorem made_of_mem_targets (hw : Built w) (hc : w.Ready c) (hk : k ∈ w.targets c) :
    w.made k.owner = true :=
  made_of_mem_overwrites hw hc.2 (List.mem_filter.1 hk).1

theorem made_of_mem_stores (hw : Built w) (hk : k ∈ w.stores c) : w.made k.owner = true := by
  obtain ⟨ha, hk, -⟩ := mem_stores_iff.1 hk
  exact made_of_mem_overwrites hw (fun _ => made_of_accepts ha) hk

namespace Alike

/-! ## Things that were made -/

theorem lt_count_iff (h : Alike σ w v) (s : Series) (i : Nat) :
    σ s i < w.count s ↔ i < w.count s := by
  constructor
  · intro hlt
    by_contra hge
    rw [h.fixes s i (Nat.not_lt.1 hge)] at hlt
    exact hge hlt
  · intro hlt
    by_contra hge
    have he : σ s i = i := (σ s).injective (h.fixes s (σ s i) (Nat.not_lt.1 hge))
    rw [he] at hge
    exact hge hlt

theorem lt_smul_iff (h : Alike σ w v) (s : Series) (i : Nat) :
    σ s i < v.count s ↔ i < w.count s := by
  rw [h.count, h.lt_count_iff]

theorem madeGraph_smul (h : Alike σ w v) (g : GraphId) :
    v.madeGraph (σ • g) = w.madeGraph g :=
  decide_eq_decide.2 (h.lt_smul_iff .graphs g.serial)

theorem madeNode_smul (h : Alike σ w v) (n : NodeId) : v.madeNode (σ • n) = w.madeNode n := by
  rcases n with ⟨⟨g, i⟩ | i⟩ | ⟨⟨g, i⟩ | i⟩
  · show (v.madeGraph (σ • g) && decide (i < (v.graph (σ • g)).plainMade)) = _
    rw [h.madeGraph_smul, madeNode]
    cases hg : w.madeGraph g with
    | false => rfl
    | true => rw [(h.content (.plainNodes g) hg).plainMade_eq]
  · exact decide_eq_decide.2 (h.lt_smul_iff .plain i)
  · show (v.madeGraph (σ • g) && decide (i < (v.graph (σ • g)).htmlMade)) = _
    rw [h.madeGraph_smul, madeNode]
    cases hg : w.madeGraph g with
    | false => rfl
    | true => rw [(h.content (.htmlNodes g) hg).htmlMade_eq]
  · exact decide_eq_decide.2 (h.lt_smul_iff .html i)

theorem madeEdge_smul (h : Alike σ w v) (e : EdgeId) : v.madeEdge (σ • e) = w.madeEdge e := by
  rcases e with ⟨⟨g, i⟩ | i⟩
  · show (v.madeGraph (σ • g) && decide (i < (v.graph (σ • g)).edgesMade)) = _
    rw [h.madeGraph_smul, madeEdge]
    cases hg : w.madeGraph g with
    | false => rfl
    | true => rw [(h.content (.edges g) hg).edgesMade_eq]
  · exact decide_eq_decide.2 (h.lt_smul_iff .edges i)

/-- The same was made. -/
theorem made_smul (h : Alike σ w v) (o : Object) : v.made (σ • o) = w.made o := by
  rcases o with g | n | e | ⟨g, scope⟩ | n | e | i
  · exact h.madeGraph_smul g
  · exact h.madeNode_smul n
  · exact h.madeEdge_smul e
  · exact h.madeGraph_smul g
  · exact h.madeNode_smul n
  · exact h.madeEdge_smul e
  · exact decide_eq_decide.2 (h.lt_smul_iff .sets i)

/-! ## Being alike -/

theorem refl (w : Workspace) : Alike 1 w w :=
  ⟨fun _ => rfl, fun _ _ _ => rfl, fun k _ => .refl k w⟩

theorem symm (h : Alike σ w v) : Alike σ⁻¹ v w := by
  refine ⟨fun s => (h.count s).symm, fun s i hi => ?_, fun k hk => ?_⟩
  · rw [h.count] at hi
    exact Equiv.Perm.inv_eq_iff_eq.2 (h.fixes s i hi).symm
  · have hk' : w.made (σ⁻¹ • k).owner = true := by
      rw [← h.made_smul, ← Cell.owner_smul, smul_inv_smul]
      exact hk
    have hm := (h.content _ hk').symm
    rwa [smul_inv_smul] at hm

theorem trans (h : Alike σ w v) (h' : Alike τ v u) : Alike (τ * σ) w u := by
  refine ⟨fun s => (h'.count s).trans (h.count s), fun s i hi => ?_, fun k hk => ?_⟩
  · have hi' : v.count s ≤ i := by rwa [h.count]
    rw [Relabel.mul_apply, h.fixes s i hi, h'.fixes s i hi']
  · refine (h.content k hk).trans (h'.content _ ?_)
    rw [Cell.owner_smul, h.made_smul]
    exact hk

/-! ## Commands -/

theorem agrees (h : Alike σ w v) (hw : Built w) (c : Command) : Agrees σ c w v where
  made o _ := h.made_smul o
  fixed k hk _ _ := h.content k hk
  stores k hk := h.content k (made_of_mem_stores hw hk)
  next s _ := (h.fixes s _ (Nat.le_refl _)).trans (h.count s).symm

/-- **Commands keep workspaces alike.** -/
theorem step (h : Alike σ w v) (hw : Built w) (hv : Built v) (hc : c.Steady) :
    Alike σ (w.step c).1 (v.step (σ • c)).1 := by
  have hagrees : Agrees σ c w v := h.agrees hw c
  have hcounted := hagrees.counted_smul hw hv
  refine ⟨fun s => ?_, fun s i hi => ?_, fun k hk => ?_⟩
  · rw [count_step, count_step, hcounted, h.count]
  · refine h.fixes s i (Nat.le_trans ?_ hi)
    rw [count_step]
    split
    · exact Nat.le_succ _
    · exact Nat.le_refl _
  · have hwrites : Matches σ k (w.writeAll (w.changes c)) (v.writeAll (v.changes (σ • c))) := by
      rw [hagrees.changes_smul hw hv hc]
      exact .writeAll fun hne => h.content k (made_of_forall_ne hc.endsGiven hk hne)
    unfold Matches
    rw [step_eq, step_eq, content_advance, content_advance]
    exact hwrites

theorem ready_smul (h : Alike σ w v) (hc : w.Ready c) : v.Ready (σ • c) := by
  refine ⟨Command.steady_smul σ hc.1, ?_⟩
  rw [Command.mentions_smul]
  intro o ho
  obtain ⟨p, hp, rfl⟩ := List.mem_map.1 ho
  rw [h.made_smul]
  exact hc.2 p hp

/-- What is done after is done alike. -/
theorem run (h : Alike σ w v) (hw : Built w) (hv : Built v) {cs : List Command}
    (hcs : w.Obeys Ready cs) :
    v.Obeys Ready (cs.map fun c => σ • c) ∧
      v.events (cs.map fun c => σ • c) = (w.events cs).map (fun e => σ • e) ∧
        Alike σ (w.run cs).1 (v.run (cs.map fun c => σ • c)).1 := by
  induction cs generalizing w v with
  | nil => exact ⟨trivial, rfl, h⟩
  | cons c cs ih =>
    obtain ⟨hc, hcs⟩ := hcs
    have hevent : v.event (σ • c) = σ • w.event c :=
      (h.agrees hw c).event_smul hw hv hc
    obtain ⟨hobeys, hevents, halike⟩ := ih (h.step hw hv hc.1) (hw.step c) (hv.step (σ • c)) hcs
    refine ⟨⟨h.ready_smul hc, hobeys⟩, ?_, halike⟩
    rw [List.map_cons, events, hevent, hevents, events, List.map_cons]

/-! ## Texts -/

theorem matches_of_mem_preorder (h : Alike σ w v) (hw : Built w) {t : Tree GraphId}
    (hroot : w.madeGraph t.root = true) (ht : w.clusterTree? t.root = some t) :
    ∀ a ∈ t.preorder, ∀ k, w.Shows a k → Matches σ k w v := fun _ ha k hk =>
  h.content k (hw.owned.made_of_shows
    (hw.madeGraph_of_mem_preorder hroot (clusterTreeWithin?_unfolds ht).2 ha) hk)

/-- Where there is no tree below a graph there is none below the graph alike. -/
theorem clusterTree?_eq_none (h : Alike σ w v) (hw : Built w) (hv : Built v)
    (hg : w.madeGraph g = true) (ht : w.clusterTree? g = none) :
    v.clusterTree? (σ • g) = none := by
  cases hv' : v.clusterTree? (σ • g) with
  | none => rfl
  | some t =>
    obtain ⟨hroot, hu⟩ := clusterTreeWithin?_unfolds hv'
    have hmade : v.madeGraph t.root = true := by rw [hroot, h.madeGraph_smul, hg]
    have hback : σ⁻¹ • t.root = g := by rw [hroot, inv_smul_smul]
    have hmatches := h.symm.matches_of_mem_preorder hv hmade (by rw [hroot, hv'])
    have htree := hw.clusterTree?_congr hmatches (by rw [hback, hg]) hu
    rw [hback, ht] at htree
    cases htree

/-- **The texts of graphs that are alike are the same, and lint finds the same.** -/
theorem shown_eq (h : Alike σ w v) (hw : Built w) (hv : Built v) (hg : w.madeGraph g = true) :
    v.dotText (σ • g) = w.dotText g ∧ v.lint (σ • g) = w.lint g := by
  cases ht : w.clusterTree? g with
  | none =>
    have hnone := h.clusterTree?_eq_none hw hv hg ht
    simp only [dotText, outline?, lint, ht, hnone, Option.map_none, and_self]
  | some t =>
    obtain ⟨rfl, -⟩ := clusterTreeWithin?_unfolds ht
    have hmatches := h.matches_of_mem_preorder hw hg ht
    have hroot : v.madeGraph (σ • t.root) = true := by rw [h.madeGraph_smul, hg]
    exact ⟨hv.dotText_congr hmatches hroot ht, hv.lint_congr hmatches hroot ht⟩

end Alike

end DotBuilder.Workspace
