import DotBuilder.OrdMap.Lemmas
import DotBuilder.Proofs.Clusters.Lineage

/-!
# Clusters of graphs that are named anew

A graph keeps its place in a list of clusters when it is named anew, under the name that it had.  So
it can be listed twice, and it can be listed by a graph that is its parent no longer.  This file has
what holds all the same.

* `Listed` : a parent lists its children, and a graph has the kind of each graph that lists it;
* `Listed.attached` : also when a graph is let go that is listed under another name, too;
* `Climbs`, `Rooted.exists_climbs` : the way up from a graph ends, and with it the search for
  another graph on this way;
* `children_listed_by_parents` : all this holds after all lists of commands.
-/

namespace DotBuilder.Workspace

open Relation

variable {w w' : Workspace} {g p c : GraphId} {n : Nat}

/-! ## The way up -/

/-- The search for a graph on the way up from another, one parent at a time, and how it ends. -/
inductive Climbs (w : Workspace) (child : GraphId) : GraphId → Bool → Prop where
  /-- The graph is found. -/
  | found : Climbs w child child true
  /-- The way ends at another graph. -/
  | top {g : GraphId} (hne : g ≠ child) (h : (w.graph g).parent = none) : Climbs w child g false
  /-- The search goes on at the parent. -/
  | up {g p : GraphId} {found : Bool} (hne : g ≠ child) (h : w.ChildOf g p)
    (hp : Climbs w child p found) : Climbs w child g found

/-- A lineage that ends before its bound ends with a graph that has no parent. -/
theorem exists_root_of_length_lt (hl : (w.lineageFrom n g).length < n) :
    ∃ r, ReflTransGen w.ChildOf g r ∧ (w.graph r).parent = none := by
  induction n generalizing g with
  | zero => cases hl
  | succ n ih =>
    cases hp : (w.graph g).parent with
    | none => exact ⟨g, .refl, hp⟩
    | some p =>
      rw [lineageFrom_of_childOf hp, List.length_cons] at hl
      obtain ⟨r, hr, hroot⟩ := ih (Nat.lt_of_succ_lt_succ hl)
      exact ⟨r, .head hp hr, hroot⟩

namespace Rooted

/-- The way up from a graph ends. -/
theorem exists_root (hw : Rooted w) (g : GraphId) :
    ∃ r, ReflTransGen w.ChildOf g r ∧ (w.graph r).parent = none := by
  by_cases hg : w.madeGraph g = true
  · exact exists_root_of_length_lt (Nat.lt_succ_of_le (hw.length_lineageFrom_le hg _))
  · exact ⟨g, .refl, hw.parent_eq_none hg⟩

theorem exists_climbs (hw : Rooted w) (child g : GraphId) : ∃ found, w.Climbs child g found := by
  obtain ⟨r, hr, hroot⟩ := hw.exists_root g
  induction hr using ReflTransGen.head_induction_on with
  | refl =>
    by_cases h : r = child
    · subst h
      exact ⟨true, .found⟩
    · exact ⟨false, .top h hroot⟩
  | @head g p hp _ ih =>
    by_cases h : g = child
    · subst h
      exact ⟨true, .found⟩
    · obtain ⟨found, hfound⟩ := ih
      exact ⟨found, .up h hp hfound⟩

end Rooted

/-- The search finds exactly what is on the way up. -/
theorem Climbs.eq_true_iff {child : GraphId} {found : Bool} (h : w.Climbs child g found) :
    found = true ↔ ReflTransGen w.ChildOf g child := by
  induction h with
  | found => exact iff_of_true rfl .refl
  | top hne h =>
    refine iff_of_false Bool.false_ne_true fun hg => ?_
    rcases hg.cases_head with hg | ⟨p, hp, -⟩
    · exact hne hg
    · exact absurd (hp.symm.trans h) (by simp)
  | up hne h _ ih =>
    refine ih.trans ⟨fun hp => .head h hp, fun hg => ?_⟩
    rcases hg.cases_head with hg | ⟨q, hq, hg⟩
    · exact absurd hg hne
    · exact w.rightUnique_childOf hq h ▸ hg

/-! ## Lists of clusters -/

/-- Parents list their children, and what is listed was made and has the kind of what lists it. -/
structure Listed (w : Workspace) : Prop extends Rooted w where
  child {c p : GraphId} : w.ChildOf c p → c ∈ w.clusterList p
  made_listed {c p : GraphId} : c ∈ w.clusterList p → w.madeGraph c = true
  made_lister {c p : GraphId} : c ∈ w.clusterList p → w.madeGraph p = true
  kind {c p : GraphId} : c ∈ w.clusterList p → (w.graph c).kind = (w.graph p).kind

theorem mem_clusterList_iff_get? :
    c ∈ w.clusterList p ↔ ∃ name, (w.graph p).clusters.get? name = some c :=
  OrdMap.mem_values_iff

namespace Listed

/-- The names of graphs do not count. -/
theorem of_graphs (hw : Listed w) (hr : Rooted w') (hm : w'.graphsMade = w.graphsMade)
    (h : ∀ g, (w'.graph g).kind = (w.graph g).kind ∧ (w'.graph g).parent = (w.graph g).parent ∧
      (w'.graph g).clusters = (w.graph g).clusters) : Listed w' := by
  have hlist : ∀ g, w'.clusterList g = w.clusterList g := fun g => by
    rw [clusterList, (h g).2.2, clusterList]
  have hmade : ∀ g, w'.madeGraph g = w.madeGraph g := fun g => by
    rw [madeGraph, hm, madeGraph]
  refine ⟨hr, fun {c p} hc => ?_, fun {c p} hc => ?_, fun {c p} hc => ?_, fun {c p} hc => ?_⟩
  · rw [ChildOf, (h c).2.1] at hc
    exact hlist p ▸ hw.child hc
  · exact (hmade c).trans (hw.made_listed (hlist p ▸ hc))
  · exact (hmade p).trans (hw.made_lister (hlist p ▸ hc))
  · rw [(h c).1, (h p).1]
    exact hw.kind (hlist p ▸ hc)

theorem newGraph (hw : Listed w) (kind : Kind) (name : String) (strict : Bool) :
    Listed (w.newGraph kind name strict).1 := by
  have hmade : ∀ {g}, w.madeGraph g = true →
      (w.newGraph kind name strict).1.madeGraph g = true := by
    intro g hg
    have hlt : g.serial < w.graphsMade := of_decide_eq_true hg
    exact decide_eq_true (Nat.lt_succ_of_lt hlt)
  have hold : ∀ {c p}, c ∈ (w.newGraph kind name strict).1.clusterList p →
      c ∈ w.clusterList p := by
    intro c p hc
    rw [clusterList, graph_newGraph] at hc
    by_cases hp : p = ⟨w.graphsMade⟩
    · rw [if_pos hp] at hc
      cases hc
    · rw [if_neg hp] at hc
      exact hc
  refine ⟨hw.toRooted.newGraph kind name strict, fun {c p} hc => ?_, fun hc => ?_, fun hc => ?_,
    fun {c p} hc => ?_⟩
  · rw [ChildOf, graph_newGraph] at hc
    by_cases hnew : c = ⟨w.graphsMade⟩
    · rw [if_pos hnew] at hc
      cases hc
    · rw [if_neg hnew] at hc
      have hlisted := hw.child hc
      rw [clusterList, graph_newGraph_of_made (hw.made_parent hc)]
      exact hlisted
  · exact hmade (hw.made_listed (hold hc))
  · exact hmade (hw.made_lister (hold hc))
  · have hc' := hold hc
    rw [graph_newGraph_of_made (hw.made_listed hc'), graph_newGraph_of_made (hw.made_lister hc')]
    exact hw.kind hc'

/-- A graph that is let go may be listed under other names, but then it has no parent. -/
theorem attached (hw : Listed w) {parent child : GraphId} (hp : w.madeGraph parent = true)
    (hc : w.madeGraph child = true) (h : w.attachError? parent child = none) :
    Listed (w.attached parent child) := by
  have hmade : ∀ g, (w.attached parent child).madeGraph g = w.madeGraph g := fun g => by
    rw [madeGraph, graphsMade_attached, madeGraph]
  have hnew : ∀ {d q}, d ∈ (w.attached parent child).clusterList q →
      d ∈ w.clusterList q ∨ d = child ∧ q = parent := by
    intro d q hd
    obtain ⟨name, hd⟩ := mem_clusterList_iff_get?.1 hd
    rw [clusters_attached] at hd
    by_cases hq : q = parent
    · rw [if_pos hq, OrdMap.get?_insert] at hd
      by_cases hn : (w.graph child).name = name
      · rw [if_pos hn] at hd
        exact .inr ⟨(Option.some.inj hd).symm, hq⟩
      · rw [if_neg hn, ← hq] at hd
        exact .inl (mem_clusterList_iff_get?.2 ⟨name, hd⟩)
    · rw [if_neg hq] at hd
      exact .inl (mem_clusterList_iff_get?.2 ⟨name, hd⟩)
  refine ⟨hw.toRooted.attached hp hc h, fun {d q} hd => ?_, fun {d q} hd => ?_, fun {d q} hd => ?_,
    fun {d q} hd => ?_⟩
  · rw [mem_clusterList_iff_get?, clusters_attached]
    rw [ChildOf, parent_attached] at hd
    by_cases hdc : d = child
    · rw [if_pos hdc] at hd
      refine ⟨(w.graph child).name, ?_⟩
      rw [if_pos (Option.some.inj hd).symm, OrdMap.get?_insert, if_pos rfl, hdc]
    · rw [if_neg hdc] at hd
      by_cases ho : (w.graph parent).clusters.get? (w.graph child).name = some d
      · rw [if_pos ho] at hd
        cases hd
      · rw [if_neg ho] at hd
        obtain ⟨name, hname⟩ := mem_clusterList_iff_get?.1 (hw.child hd)
        refine ⟨name, ?_⟩
        by_cases hq : q = parent
        · subst hq
          have hne : (w.graph child).name ≠ name := by
            rintro rfl
            exact ho hname
          rw [if_pos rfl, OrdMap.get?_insert, if_neg hne, hname]
        · rw [if_neg hq, hname]
  · rw [hmade]
    rcases hnew hd with hd | ⟨rfl, -⟩
    · exact hw.made_listed hd
    · exact hc
  · rw [hmade]
    rcases hnew hd with hd | ⟨-, rfl⟩
    · exact hw.made_lister hd
    · exact hp
  · rw [kind_attached, kind_attached]
    rcases hnew hd with hd | ⟨rfl, rfl⟩
    · exact hw.kind hd
    · exact (attachError?_eq_none_iff.1 h).1

/-- **Every command, also one that names graphs anew, keeps the children of graphs listed.** -/
theorem step (hw : Listed w) (c : Command) : Listed (w.step c).1 := by
  have hr : Rooted (w.step c).1 := hw.toRooted.step c
  have hf : w.FamilyChange c (w.step c).1 := (w.step_effect c).family
  generalize (w.step c).1 = w' at hr hf
  cases hf with
  | same h => exact hw.of_graphs hr h.graphsMade fun g => ⟨h.kind g, h.parent g, h.clusters g⟩
  | newGraph kind name strict => exact hw.newGraph kind name strict
  | @renameGraph g name hg =>
    refine hw.of_graphs hr rfl fun k => ?_
    unfold Workspace.renameGraph
    rw [graph_modifyGraph]
    by_cases hk : k = g <;> simp [hk]
  | attach hp hc h => exact hw.attached hp hc h

end Listed

theorem listed_empty : Listed empty := by
  refine ⟨rooted_empty, ?_, ?_, ?_, ?_⟩ <;> intro c p h <;> cases h

theorem listed_run (cs : List Command) : Listed (empty.run cs).1 :=
  run_keeps (fun _ c hw => hw.step c) listed_empty cs

/-- **Children are listed by their parents, however graphs are named anew.**  After every list of
commands the way up from each graph ends at a graph without a parent, and so does the search for a
graph on this way, which finds what the test for cycles finds; a graph that has a parent is listed
by it; and a graph that is listed has the kind of the graph that lists it. -/
theorem children_listed_by_parents (cs : List Command) :
    let w := (empty.run cs).1
    (∀ g, ∃ r, ReflTransGen (fun c p => (w.graph c).parent = some p) g r ∧
      (w.graph r).parent = none) ∧
    (∀ parent child, ∃ found, w.Climbs child parent found ∧
      (w.madeGraph parent = true → (found = true ↔ child ∈ w.lineage parent))) ∧
    (∀ c p, (w.graph c).parent = some p → ∃ name, (name, c) ∈ (w.graph p).clusters.entries) ∧
    ∀ p name c, (name, c) ∈ (w.graph p).clusters.entries →
      (w.graph c).kind = (w.graph p).kind := by
  intro w
  have hw : Listed w := listed_run cs
  refine ⟨hw.exists_root, fun parent child => ?_, fun c p hc => ?_, fun p name c hc => ?_⟩
  · obtain ⟨found, h⟩ := hw.exists_climbs child parent
    exact ⟨found, h, fun hp => h.eq_true_iff.trans (hw.mem_lineage_iff hp).symm⟩
  · obtain ⟨name, h⟩ := mem_clusterList_iff_get?.1 (hw.child hc)
    exact ⟨name, (OrdMap.mem_entries_iff _ name c).2 h⟩
  · exact hw.kind (List.mem_map_of_mem (f := Prod.snd) hc)

/-- A graph that is attached under two names and loses the first to another graph is still listed
under the second, without a parent. -/
example :
    let w := (empty.run [.newGraph .directed "g" false, .newGraph .directed "a" false,
      .newGraph .directed "a" false, .attach ⟨0⟩ ⟨1⟩, .renameGraph ⟨1⟩ "b", .attach ⟨0⟩ ⟨1⟩,
      .attach ⟨0⟩ ⟨2⟩]).1
    (w.graph ⟨0⟩).clusters.entries = [("a", ⟨2⟩), ("b", ⟨1⟩)] ∧
      (w.graph ⟨1⟩).parent = none ∧ (w.graph ⟨2⟩).parent = some ⟨0⟩ := by
  decide +kernel

end DotBuilder.Workspace
