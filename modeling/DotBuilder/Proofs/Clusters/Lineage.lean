import DotBuilder.Proofs.Clusters.Family
import Mathlib.Data.List.Nodup
import Mathlib.Data.List.Perm.Subperm
import Mathlib.Logic.Relation

/-!
# Parents and lineages

Following the parents of a graph never leads back to it, whatever commands were tried and however
graphs were renamed on the way.

* `Rooted` : graphs with a parent were made, and so were the parents, and parents are not nested in
  each other;
* `Rooted.step` : every command keeps this;
* `Rooted.mem_lineage_iff` : the lineage of a graph has all graphs that following parents leads to,
  and so the test for them when a graph is attached is right.
-/

namespace DotBuilder.Workspace

open Relation

variable {w w' : Workspace} {g p a : GraphId} {n : Nat}

/-- `p` is the parent of `g`. -/
def ChildOf (w : Workspace) (g p : GraphId) : Prop := (w.graph g).parent = some p

theorem rightUnique_childOf (w : Workspace) : Relator.RightUnique w.ChildOf := by
  intro g p q hp hq
  exact Option.some.inj (hp.symm.trans hq)

/-- Parents are graphs that were made, of graphs that were made, and no graph is above itself. -/
structure Rooted (w : Workspace) : Prop where
  made_child {g p : GraphId} : w.ChildOf g p → w.madeGraph g = true
  made_parent {g p : GraphId} : w.ChildOf g p → w.madeGraph p = true
  acyclic (g : GraphId) : ¬ TransGen w.ChildOf g g

/-- There are only so many graphs. -/
theorem length_le_graphsMade {l : List GraphId} (hn : l.Nodup)
    (hm : ∀ a ∈ l, w.madeGraph a = true) : l.length ≤ w.graphsMade := by
  have hnodup : (l.map GraphId.serial).Nodup := hn.map fun _ _ => congrArg GraphId.mk
  have hsub : l.map GraphId.serial ⊆ List.range w.graphsMade := by
    intro k hk
    obtain ⟨a, ha, rfl⟩ := List.mem_map.1 hk
    exact List.mem_range.2 (of_decide_eq_true (hm a ha))
  calc l.length
      = (l.map GraphId.serial).length := (List.length_map ..).symm
    _ ≤ (List.range w.graphsMade).length := (hnodup.subperm hsub).length_le
    _ = w.graphsMade := List.length_range

/-! ## The lineage of a graph -/

theorem lineageFrom_of_parent_none (h : (w.graph g).parent = none) :
    w.lineageFrom (n + 1) g = [g] := by
  rw [lineageFrom, h]

theorem lineageFrom_of_childOf (h : w.ChildOf g p) :
    w.lineageFrom (n + 1) g = g :: w.lineageFrom n p := by
  rw [lineageFrom, h]

theorem reflTransGen_of_mem_lineageFrom (h : a ∈ w.lineageFrom n g) :
    ReflTransGen w.ChildOf g a := by
  induction n generalizing g with
  | zero => cases h
  | succ n ih =>
    cases hp : (w.graph g).parent with
    | none =>
      rw [lineageFrom_of_parent_none hp, List.mem_singleton] at h
      rw [h]
    | some p =>
      rw [lineageFrom_of_childOf hp] at h
      rcases List.mem_cons.1 h with rfl | h
      · exact .refl
      · exact .head hp (ih h)

/-- A lineage that ends before its bound is complete. -/
theorem mem_lineageFrom_of_length_lt (hl : (w.lineageFrom n g).length < n)
    (h : ReflTransGen w.ChildOf g a) : a ∈ w.lineageFrom n g := by
  induction n generalizing g with
  | zero => cases hl
  | succ n ih =>
    cases hp : (w.graph g).parent with
    | none =>
      rw [lineageFrom_of_parent_none hp, List.mem_singleton]
      rcases h.cases_head with h | ⟨p, h, -⟩
      · exact h.symm
      · rw [ChildOf, hp] at h
        cases h
    | some p =>
      rw [lineageFrom_of_childOf hp] at hl ⊢
      rcases h.cases_head with rfl | ⟨q, hq, h⟩
      · exact List.mem_cons_self ..
      · have hqp : q = p := w.rightUnique_childOf hq hp
        refine List.mem_cons_of_mem _ (ih ?_ (hqp ▸ h))
        simpa using hl

theorem take_lineageFrom_succ (w : Workspace) (n : Nat) (g : GraphId) :
    (w.lineageFrom (n + 1) g).take n = w.lineageFrom n g := by
  induction n generalizing g with
  | zero => rfl
  | succ n ih =>
    cases hp : (w.graph g).parent with
    | none => rw [lineageFrom_of_parent_none hp, lineageFrom_of_parent_none hp]; simp
    | some p =>
      rw [lineageFrom_of_childOf hp, lineageFrom_of_childOf hp, List.take_succ_cons, ih]

namespace Rooted

theorem made_of_reflTransGen (hw : Rooted w) (hg : w.madeGraph g = true)
    (h : ReflTransGen w.ChildOf g a) : w.madeGraph a = true := by
  rcases h.cases_tail with rfl | ⟨b, -, h⟩
  · exact hg
  · exact hw.made_parent h

theorem nodup_lineageFrom (hw : Rooted w) (n : Nat) (g : GraphId) :
    (w.lineageFrom n g).Nodup := by
  induction n generalizing g with
  | zero => exact List.nodup_nil
  | succ n ih =>
    cases hp : (w.graph g).parent with
    | none => rw [lineageFrom_of_parent_none hp]; exact List.nodup_singleton g
    | some p =>
      rw [lineageFrom_of_childOf hp, List.nodup_cons]
      refine ⟨fun h => hw.acyclic g ?_, ih p⟩
      exact TransGen.head' hp (reflTransGen_of_mem_lineageFrom h)

/-- A lineage is no longer than there are graphs. -/
theorem length_lineageFrom_le (hw : Rooted w) (hg : w.madeGraph g = true) (n : Nat) :
    (w.lineageFrom n g).length ≤ w.graphsMade :=
  length_le_graphsMade (hw.nodup_lineageFrom n g) fun _ ha =>
    hw.made_of_reflTransGen hg (reflTransGen_of_mem_lineageFrom ha)

/-- The bound of a lineage cuts nothing off. -/
theorem lineageFrom_succ (hw : Rooted w) (hg : w.madeGraph g = true) :
    w.lineageFrom (w.graphsMade + 1) g = w.lineage g := by
  calc w.lineageFrom (w.graphsMade + 1) g
      = (w.lineageFrom (w.graphsMade + 1) g).take w.graphsMade :=
        (List.take_of_length_le (hw.length_lineageFrom_le hg _)).symm
    _ = w.lineage g := take_lineageFrom_succ w _ g

/-- **The lineage of a graph is all that following parents leads to.** -/
theorem mem_lineage_iff (hw : Rooted w) (hg : w.madeGraph g = true) :
    a ∈ w.lineage g ↔ ReflTransGen w.ChildOf g a := by
  rw [← hw.lineageFrom_succ hg]
  refine ⟨reflTransGen_of_mem_lineageFrom, fun h => mem_lineageFrom_of_length_lt ?_ h⟩
  exact Nat.lt_succ_of_le (hw.length_lineageFrom_le hg _)

theorem lineage_of_childOf (hw : Rooted w) (h : w.ChildOf g p) :
    w.lineage g = g :: w.lineage p := by
  rw [← hw.lineageFrom_succ (hw.made_child h), lineageFrom_of_childOf h]
  rfl

/-! ## What commands do to parents -/

/-- Nothing but the parents of graphs and the number of graphs counts. -/
theorem of_childOf (hw : Rooted w) (hc : ∀ g p, w'.ChildOf g p ↔ w.ChildOf g p)
    (hm : ∀ g, w.madeGraph g = true → w'.madeGraph g = true) : Rooted w' := by
  have hcw : w'.ChildOf = w.ChildOf := funext₂ fun g p => propext (hc g p)
  exact ⟨fun h => hm _ (hw.made_child ((hc _ _).1 h)),
    fun h => hm _ (hw.made_parent ((hc _ _).1 h)), hcw ▸ hw.acyclic⟩

theorem parent_eq_none (hw : Rooted w) (hg : ¬ w.madeGraph g = true) :
    (w.graph g).parent = none := by
  cases hp : (w.graph g).parent with
  | none => rfl
  | some p => exact absurd (hw.made_child hp) hg

theorem newGraph (hw : Rooted w) (kind : Kind) (name : String) (strict : Bool) :
    Rooted (w.newGraph kind name strict).1 := by
  refine hw.of_childOf (fun g p => ?_) (fun g hg => ?_)
  · unfold ChildOf
    rw [graph_newGraph]
    by_cases h : g = ⟨w.graphsMade⟩
    · subst h
      have hp : (w.graph ⟨w.graphsMade⟩).parent = none := hw.parent_eq_none (by simp [madeGraph])
      simp [Graph.blank, hp]
    · rw [if_neg h]
  · have hlt : g.serial < w.graphsMade := of_decide_eq_true hg
    exact decide_eq_true (Nat.lt_succ_of_lt hlt)

/-- After attaching, parents are followed as before or through the new parent. -/
theorem childOf_attached {parent child : GraphId}
    (h : (w.attached parent child).ChildOf g p) :
    w.ChildOf g p ∨ g = child ∧ p = parent := by
  unfold ChildOf at h ⊢
  rw [parent_attached] at h
  split at h
  · rename_i hg
    exact .inr ⟨hg, (Option.some.inj h).symm⟩
  · split at h
    · cases h
    · exact .inl h

theorem transGen_attached {parent child : GraphId} {x y : GraphId}
    (h : TransGen (w.attached parent child).ChildOf x y) :
    TransGen w.ChildOf x y ∨
      ReflTransGen w.ChildOf x child ∧ ReflTransGen w.ChildOf parent y := by
  induction h with
  | single h =>
    rcases childOf_attached h with h | ⟨rfl, rfl⟩
    · exact .inl (.single h)
    · exact .inr ⟨.refl, .refl⟩
  | tail _ h ih =>
    rcases childOf_attached h with h | ⟨rfl, rfl⟩
    · exact ih.imp (·.tail h) fun ih => ⟨ih.1, ih.2.tail h⟩
    · exact .inr ⟨ih.elim TransGen.to_reflTransGen And.left, .refl⟩

/-- Attaching is refused where it would make a cycle. -/
theorem attached (hw : Rooted w) {parent child : GraphId} (hp : w.madeGraph parent = true)
    (hc : w.madeGraph child = true) (h : w.attachError? parent child = none) :
    Rooted (w.attached parent child) := by
  have hmade : ∀ g, (w.attached parent child).madeGraph g = w.madeGraph g := by
    intro g
    rw [madeGraph, graphsMade_attached, madeGraph]
  have hnot : ¬ ReflTransGen w.ChildOf parent child := by
    rw [← hw.mem_lineage_iff hp]
    exact (attachError?_eq_none_iff.1 h).2.2
  refine ⟨fun h => ?_, fun h => ?_, fun g h => ?_⟩
  · rw [hmade]
    rcases childOf_attached h with h | ⟨rfl, rfl⟩
    · exact hw.made_child h
    · exact hc
  · rw [hmade]
    rcases childOf_attached h with h | ⟨rfl, rfl⟩
    · exact hw.made_parent h
    · exact hp
  · rcases transGen_attached h with h | ⟨h₁, h₂⟩
    · exact hw.acyclic g h
    · exact hnot (h₂.trans h₁)

theorem of_familyChange (hw : Rooted w) {c : Command} (h : w.FamilyChange c w') :
    Rooted w' := by
  cases h with
  | same h =>
    refine hw.of_childOf (fun g p => ?_) (fun g hg => ?_)
    · unfold ChildOf
      rw [h.parent]
    · rwa [madeGraph, h.graphsMade]
  | newGraph kind name strict => exact hw.newGraph kind name strict
  | @renameGraph g name hg =>
    refine hw.of_childOf (fun k p => ?_) fun _ h => h
    unfold ChildOf renameGraph
    rw [graph_modifyGraph]
    by_cases hk : k = g <;> simp [hk]
  | attach hp hc h => exact hw.attached hp hc h

/-- **Every command keeps parents free of cycles.** -/
theorem step (hw : Rooted w) (c : Command) : Rooted (w.step c).1 :=
  hw.of_familyChange (w.step_effect c).family

end Rooted

theorem rooted_empty : Rooted empty := by
  have h : ∀ g p, ¬ empty.ChildOf g p := fun g p h => by cases h
  refine ⟨fun h' => absurd h' (h _ _), fun h' => absurd h' (h _ _), fun g hg => ?_⟩
  cases hg with
  | single h' => exact h _ _ h'
  | tail _ h' => exact h _ _ h'

end DotBuilder.Workspace
