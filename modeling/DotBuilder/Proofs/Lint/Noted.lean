import DotBuilder.Proofs.Clusters.Descent
import DotBuilder.Proofs.Lint.Stored
import Mathlib.Data.List.Induction

/-!
# Lint and notes agree

Attributes are checked twice: when they are stored, where the names that a set does not take are
noted down, and when a graph is linted, where the stored names are looked at again.  Both find the
same names, however the attributes came into a set; only that a graph with a parent is linted as a
cluster, so that attributes for graphs alone are reported for it, too.

* `Noted` : a warning was noted while attributes were stored in a set;
* `mem_warnings_iff_noted` : a set has the names that were noted for it, and no others;
* `warnings_agree_with_notes` : lint reports them, set by set.
-/

namespace DotBuilder

/-- Whether a warning is about the name of an attribute. -/
def Warning.isAttribute : Warning → Bool
  | invalidAttribute .. => true
  | missingNode _ => false

/-- The catalog lists the name for graphs and not for clusters. -/
def GraphOnly (name : String) : Prop :=
  ∃ a, Attribute.find? name = some a ∧ a.allows .graph = true ∧ a.allows .cluster = false

theorem accepts_cluster_eq_false_iff {name : String} :
    accepts .cluster name = false ↔ accepts .graph name = false ∨ GraphOnly name := by
  unfold accepts GraphOnly
  cases Attribute.find? name with
  | none => simp
  | some a => cases hg : a.allows .graph <;> cases hc : a.allows .cluster <;>
      simp [Context.takes, hg, hc]

theorem mem_warnings_attrsFindings_iff {r : Context} {m : Attrs} {x : Warning} :
    x ∈ (attrsFindings r m).warnings ↔ ∃ name ∈ unaccepted r m, x = .invalidAttribute name r := by
  rw [warnings_attrsFindings, List.mem_map]
  simp only [eq_comm]

theorem mem_warnings_insertAll_iff {r : Context} {m n : Attrs} {x : Warning} :
    x ∈ (attrsFindings r (m.insertAll n)).warnings ↔
      x ∈ (attrsFindings r m).warnings ∨ x ∈ (attrsFindings r n).warnings := by
  simp only [mem_warnings_attrsFindings_iff, mem_unaccepted_iff, OrdMap.mem_keys_insertAll]
  constructor
  · rintro ⟨name, ⟨hm | hn, ha⟩, rfl⟩
    · exact .inl ⟨name, ⟨hm, ha⟩, rfl⟩
    · exact .inr ⟨name, ⟨hn, ha⟩, rfl⟩
  · rintro (⟨name, ⟨hm, ha⟩, rfl⟩ | ⟨name, ⟨hn, ha⟩, rfl⟩)
    · exact ⟨name, ⟨.inl hm, ha⟩, rfl⟩
    · exact ⟨name, ⟨.inr hn, ha⟩, rfl⟩

namespace Workspace

variable {w : Workspace} {g : GraphId} {s : SetId} {r : Context} {x : Warning}

/-! ## Notes of a run -/

/-- A warning was noted by a command of a list while it stored attributes in a set. -/
def Noted (cs : List Command) (s : SetId) (x : Warning) : Prop :=
  ∃ before c after, cs = before ++ c :: after ∧ (empty.run before).1.Notes c s x

theorem not_noted_nil : ¬ Noted [] s x := by
  rintro ⟨before, c, after, h, -⟩
  cases before <;> cases h

theorem noted_append_singleton {cs : List Command} {c : Command} :
    Noted (cs ++ [c]) s x ↔ Noted cs s x ∨ (empty.run cs).1.Notes c s x := by
  constructor
  · rintro ⟨before, d, after, h, hd⟩
    rcases List.eq_nil_or_concat after with rfl | ⟨after, e, rfl⟩
    · obtain ⟨rfl, hcd⟩ := List.append_inj' h rfl
      cases hcd
      exact .inr hd
    · rw [List.concat_eq_append, ← List.cons_append, ← List.append_assoc] at h
      obtain ⟨rfl, -⟩ := List.append_inj' h rfl
      exact .inl ⟨before, d, after, rfl, hd⟩
  · rintro (⟨before, d, after, rfl, hd⟩ | h)
    · exact ⟨before, d, after ++ [c], by simp, hd⟩
    · exact ⟨cs, c, [], rfl, h⟩

/-- **A set has the names that were noted for it, and no others that it does not take.** -/
theorem mem_warnings_iff_noted (cs : List Command) (hr : s.role = some r) :
    x ∈ (attrsFindings r ((empty.run cs).1.attrSet s).entries).warnings ↔ Noted cs s x := by
  induction cs using List.reverseRecOn with
  | nil =>
    constructor
    · intro h
      cases h
    · exact fun h => absurd h not_noted_nil
  | append_singleton cs c ih =>
    obtain ⟨given, hstores⟩ := (owned_run cs).exists_stored c hr
    have hrun : (empty.run (cs ++ [c])).1 = ((empty.run cs).1.step c).1 := run_append empty cs [c]
    rw [hrun, hstores.entries, mem_warnings_insertAll_iff, noted_append_singleton, ih,
      hstores.notes]

/-- Nothing is noted for a set that was strict from the start. -/
theorem not_noted_of_strict {cs : List Command} (hr : s.role = some r)
    (hs : ∀ before after, cs = before ++ after → (empty.run before).1.madeSet s = true →
      ((empty.run before).1.attrSet s).strict = true) : ¬ Noted cs s x := by
  rintro ⟨before, c, after, rfl, h⟩
  obtain ⟨given, hstores⟩ := (owned_run before).exists_stored c hr
  have hrun : (empty.run (before ++ [c])).1 = ((empty.run before).1.step c).1 :=
    run_append empty before [c]
  obtain ⟨name, hname, -⟩ := mem_warnings_attrsFindings_iff.1 ((hstores.notes x).1 h)
  have hmade : ((empty.run before).1.step c).1.madeSet s = true := by
    by_contra hnot
    have hw : Owned ((empty.run before).1.step c).1 := hrun ▸ owned_run (before ++ [c])
    have hempty := hw.entries_eq (Bool.eq_false_iff.2 hnot)
    have hmem : name ∈ (((empty.run before).1.step c).1.attrSet s).entries.keys := by
      rw [hstores.entries]
      exact OrdMap.mem_keys_insertAll.2 (.inr (mem_unaccepted_iff.1 hname).1)
    rw [hempty] at hmem
    cases hmem
  have hstrict := hs (before ++ [c]) after (by simp) (by rw [hrun]; exact hmade)
  rw [hrun] at hstrict
  rw [hstores.strict hstrict] at hname
  cases hname

/-! ## The sets of a graph -/

/-- The attribute sets that lint goes through for a graph, each with the context that it is looked
at in: the defaults of the graph and the sets of its nodes and edges. -/
def heldSets (w : Workspace) (g : GraphId) : List (Context × SetId) :=
  [(w.graphContext g, .defaults g .graph), (.node, .defaults g .node),
      (.edge, .defaults g .edge)] ++
    ((w.graph g).allNodes.map (fun n => (.node, (w.node n).attributes)) ++
      (w.graph g).edges.map fun e => (.edge, .edge e))

/-- No set is made for a cluster. -/
theorem role_ne_cluster (s : SetId) : s.role ≠ some .cluster := by
  rcases s with ⟨g, _ | _ | _⟩ | n | e | i <;> exact nofun

/-- Each set is looked at in its own context, but for graphs with a parent. -/
theorem Owned.role_of_mem_heldSets (hw : Owned w) {p : Context × SetId} (hp : p ∈ w.heldSets g) :
    p.2.role = some p.1 ∨ p = (.cluster, .defaults g .graph) ∧ (w.graph g).parent ≠ none := by
  simp only [heldSets, List.mem_append, List.mem_cons, List.not_mem_nil, or_false,
    List.mem_map] at hp
  rcases hp with (rfl | rfl | rfl) | ⟨n, hn, rfl⟩ | ⟨e, -, rfl⟩
  · unfold graphContext
    cases (w.graph g).parent with
    | none => exact .inl rfl
    | some q => exact .inr ⟨rfl, by simp⟩
  · exact .inl rfl
  · exact .inl rfl
  · obtain ⟨hhome, hmade⟩ := hw.node_of_mem hn
    rw [hw.attributes_eq hmade hhome]
    exact .inl rfl
  · exact .inl rfl

/-! ## Reports -/

theorem filter_warnings_lintSet (c : Context) (s : SetId) :
    (w.lintSet c s).warnings.filter Warning.isAttribute = (w.lintSet c s).warnings := by
  refine List.filter_eq_self.2 fun x hx => ?_
  obtain ⟨name, -, rfl⟩ := mem_warnings_attrsFindings_iff.1 hx
  rfl

theorem filter_warnings_lintEnd (known : List String) (p : Endpoint) :
    (w.lintEnd known p).warnings.filter Warning.isAttribute = [] := by
  unfold lintEnd
  dsimp only
  split <;> rfl

theorem filter_warnings_lintGraph (known : List String) (g : GraphId) :
    (w.lintGraph known g).warnings.filter Warning.isAttribute =
      (w.heldSets g).flatMap fun p => (w.lintSet p.1 p.2).warnings := by
  have hedge : ∀ e, (w.lintEdge known e).warnings.filter Warning.isAttribute =
      (w.lintSet .edge (.edge e)).warnings := by
    intro e
    simp only [lintEdge, Report.warnings_append, List.filter_append, filter_warnings_lintSet,
      filter_warnings_lintEnd, List.append_nil]
  simp only [lintGraph, heldSets, Report.warnings_append, Report.warnings_concat,
    List.filter_append, List.filter_flatMap, List.flatMap_map, List.flatMap_append,
    List.flatMap_cons, List.flatMap_nil, filter_warnings_lintSet, hedge, Report.ofErrors,
    List.nil_append, List.append_nil, List.append_assoc]

theorem filter_warnings_lintTree (t : Tree GraphId) :
    (w.lintTree t).warnings.filter Warning.isAttribute =
      (t.preorder.flatMap w.heldSets).flatMap fun p => (w.lintSet p.1 p.2).warnings := by
  rw [lintTree, Report.warnings_concat, List.flatMap_map, List.filter_flatMap, List.flatMap_assoc]
  simp only [filter_warnings_lintGraph]

/-- What is reported for a graph with a parent: the names that were noted, and those for graphs
alone. -/
theorem mem_warnings_cluster_iff (cs : List Command) (g : GraphId) :
    let w := (empty.run cs).1
    x ∈ (w.lintSet .cluster (.defaults g .graph)).warnings ↔
      ∃ name, x = .invalidAttribute name .cluster ∧
        (Noted cs (.defaults g .graph) (.invalidAttribute name .graph) ∨
          name ∈ (w.attrSet (.defaults g .graph)).entries.keys ∧ GraphOnly name) := by
  intro w
  have hnoted : ∀ name, Noted cs (.defaults g .graph) (.invalidAttribute name .graph) ↔
      name ∈ unaccepted .graph (w.attrSet (.defaults g .graph)).entries := by
    intro name
    rw [← mem_warnings_iff_noted (r := .graph) cs rfl, mem_warnings_attrsFindings_iff]
    simp only [Warning.invalidAttribute.injEq, and_true, exists_eq_right']
    rfl
  rw [lintSet, mem_warnings_attrsFindings_iff]
  refine exists_congr fun name => ?_
  rw [hnoted, mem_unaccepted_iff, mem_unaccepted_iff, accepts_cluster_eq_false_iff, ← and_or_left,
    and_comm]

/-- **Lint and notes agree.**  After every list of commands, for every graph from which going down
comes to an end, lint reports on the attributes of each set in the tree, and for each set exactly
the warnings that were noted while attributes were stored in it.  Only the set of a graph that has a
parent is reported on as that of a cluster, with the names that were noted for it as that of a graph
and with those of its names that the catalog lists for graphs and not for clusters.  So if all these
sets were strict from the start, lint warns of attributes for graphs alone, and of no others. -/
theorem warnings_agree_with_notes {cs : List Command} {t : Tree GraphId}
    (hroot : (empty.run cs).1.madeGraph t.root = true)
    (ht : t.Unfolds (empty.run cs).1.clusterList) :
    let w := (empty.run cs).1
    let held := t.preorder.flatMap w.heldSets
    w.lint t.root = .ok (w.lintTree t) ∧
    (w.lintTree t).warnings.filter Warning.isAttribute =
      (held.flatMap fun p => (w.lintSet p.1 p.2).warnings) ∧
    (∀ p ∈ held, p.1 ≠ .cluster → ∀ x, x ∈ (w.lintSet p.1 p.2).warnings ↔ Noted cs p.2 x) ∧
    (∀ p ∈ held, p.1 = .cluster →
      ∃ g ∈ t.preorder, ((w.graph g).parent ≠ none ∧ p.2 = .defaults g .graph) ∧
        ∀ x, x ∈ (w.lintSet p.1 p.2).warnings ↔ ∃ name, x = .invalidAttribute name .cluster ∧
          (Noted cs p.2 (.invalidAttribute name .graph) ∨
            name ∈ (w.attrSet p.2).entries.keys ∧ GraphOnly name)) ∧
    ((∀ p ∈ held, ∀ before after, cs = before ++ after → (empty.run before).1.madeSet p.2 = true →
        ((empty.run before).1.attrSet p.2).strict = true) →
      ∀ x ∈ (w.lintTree t).warnings, x.isAttribute = true →
        ∃ g ∈ t.preorder, (w.graph g).parent ≠ none ∧
          ∃ name ∈ (w.attrSet (.defaults g .graph)).entries.keys,
            x = .invalidAttribute name .cluster ∧ GraphOnly name) := by
  intro w held
  have hw : Owned w := owned_run cs
  have hrole : ∀ p ∈ held, p.2.role = some p.1 ∨
      ∃ g ∈ t.preorder, p = (.cluster, .defaults g .graph) ∧ (w.graph g).parent ≠ none := by
    intro p hp
    obtain ⟨g, hg, hp⟩ := List.mem_flatMap.1 hp
    exact (hw.role_of_mem_heldSets hp).imp_right fun h => ⟨g, hg, h⟩
  have hplain : ∀ p ∈ held, p.1 ≠ .cluster → ∀ x,
      x ∈ (w.lintSet p.1 p.2).warnings ↔ Noted cs p.2 x := by
    intro p hp hne x
    rcases hrole p hp with hr | ⟨g, -, rfl, -⟩
    · exact mem_warnings_iff_noted cs hr
    · exact absurd rfl hne
  have hcluster : ∀ p ∈ held, p.1 = .cluster →
      ∃ g ∈ t.preorder, p = (.cluster, .defaults g .graph) ∧ (w.graph g).parent ≠ none := by
    intro p hp he
    rcases hrole p hp with hr | h
    · rw [he] at hr
      exact absurd hr (role_ne_cluster p.2)
    · exact h
  refine ⟨?_, filter_warnings_lintTree t, hplain, ?_, ?_⟩
  · rw [lint, (listed_run cs).clusterTree?_of_unfolds hroot ht]
  · intro p hp he
    obtain ⟨g, hg, rfl, hparent⟩ := hcluster p hp he
    exact ⟨g, hg, ⟨hparent, rfl⟩, fun x => mem_warnings_cluster_iff cs g⟩
  · intro hstrict x hx ha
    have hmem : x ∈ (w.lintTree t).warnings.filter Warning.isAttribute :=
      List.mem_filter.2 ⟨hx, ha⟩
    rw [filter_warnings_lintTree] at hmem
    obtain ⟨p, hp, hxp⟩ := List.mem_flatMap.1 hmem
    by_cases he : p.1 = .cluster
    · obtain ⟨g, hg, rfl, hparent⟩ := hcluster p hp he
      obtain ⟨name, rfl, hnoted | ⟨hname, honly⟩⟩ := (mem_warnings_cluster_iff cs g).1 hxp
      · exact absurd hnoted (not_noted_of_strict (r := .graph) rfl (hstrict _ hp))
      · exact ⟨g, hg, hparent, name, hname, rfl, honly⟩
    · rcases hrole p hp with hr | ⟨g, -, rfl, -⟩
      · exact absurd ((hplain p hp he x).1 hxp) (not_noted_of_strict hr (hstrict p hp))
      · exact absurd rfl he

/-- A name that a node does not take is noted and reported.  The cluster is strict, and still a name
for graphs alone is reported for it. -/
theorem warnings_agree_with_notes_nested :
    let one (name : String) : Attrs := .ofList [(name, .int 1)]
    let cs : List Command :=
      [.newGraph .directed "g" false, .newGraph .directed "c" true,
        .assignDefaults ⟨1⟩ .graph (one "center"), .attach ⟨0⟩ ⟨1⟩,
        .addNode ⟨0⟩ "a" (one "foo"), .assign (.graph ⟨1⟩) (one "foo")]
    let w := (empty.run cs).1
    let t : Tree GraphId := ⟨⟨0⟩, .cons ⟨1⟩ .nil .nil⟩
    (w.madeGraph t.root = true ∧ t.Unfolds w.clusterList) ∧ w.lint ⟨0⟩ = .ok (w.lintTree t) ∧
      (w.lintTree t).warnings = [.invalidAttribute "foo" .node, .invalidAttribute "center" .cluster] ∧
      Noted cs (.node (.plain ⟨.graph ⟨0⟩ 0⟩)) (.invalidAttribute "foo" .node) ∧
      ¬ Noted cs (.defaults ⟨1⟩ .graph) (.invalidAttribute "foo" .graph) := by
  intro one cs w t
  have hroot : w.madeGraph t.root = true := rfl
  have ht : t.Unfolds w.clusterList := ⟨rfl, ⟨rfl, trivial, trivial⟩⟩
  obtain ⟨hlint, -, hplain, hcluster, -⟩ := warnings_agree_with_notes hroot ht
  refine ⟨⟨hroot, ht⟩, hlint, by decide +kernel, ?_, ?_⟩
  · refine (hplain (.node, .node (.plain ⟨.graph ⟨0⟩ 0⟩)) ?_ (by decide) _).1 ?_
    · decide +kernel
    · decide +kernel
  · intro hnoted
    obtain ⟨g, -, -, hx⟩ :=
      hcluster (.cluster, .defaults ⟨1⟩ .graph) (by decide +kernel) rfl
    exact absurd ((hx (.invalidAttribute "foo" .cluster)).2 ⟨"foo", rfl, .inl hnoted⟩)
      (by decide +kernel)

end Workspace

end DotBuilder
