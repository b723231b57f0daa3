import DotBuilder.Proofs.Clusters.Unfolding

/-!
# Attaching a graph

Whether a graph can be attached is decided by going up: the graph must not be among the parents of
the one that is to have it.  What is meant is that the latter must not be inside the former, which
is a matter of going down through clusters.  As long as no attached graph is named anew the two are
the same, and then attaching is known completely: when it is refused, for which reason, and what has
changed when it is not.

* `Hierarchy.mem_lineage_iff_reaches` : going up from one graph leads to what it is reached from;
* `attachError?_eq_some_iff` : the reasons to refuse, in the order in which they are looked for;
* `Adopts`, `adopts_attached` : all that attaching changes;
* `Hierarchy.attached_again` : a graph can be attached to its parent again, without effect;
* `attach_specified` : all together.
-/

namespace DotBuilder.Workspace

open Relation

variable {w w' : Workspace} {g parent child : GraphId} {e : Error}

/-! ## Being inside -/

/-- Going down from a graph, through clusters and theirs, leads to another one, or it is that. -/
def Reaches (w : Workspace) (top g : GraphId) : Prop :=
  ReflTransGen (fun p c => c ∈ w.clusterList p) top g

/-- **Going up and going down are inverse to each other.** -/
theorem Hierarchy.mem_lineage_iff_reaches (hw : Hierarchy w) (hg : w.madeGraph g = true)
    {top : GraphId} : top ∈ w.lineage g ↔ w.Reaches top g := by
  calc top ∈ w.lineage g
      ↔ ReflTransGen w.ChildOf g top := hw.mem_lineage_iff hg
    _ ↔ ReflTransGen (fun c p => c ∈ w.clusterList p) g top := by
      rw [hw.mem_clusterList_eq_childOf]
    _ ↔ w.Reaches top g := reflTransGen_swap.symm

/-! ## Refusals -/

/-- Whether a graph is free to be attached to `parent`: it is no cluster, or one of `parent`. -/
def FreeFor (w : Workspace) (parent child : GraphId) : Prop :=
  ∀ q, (w.graph child).parent = some q → q = parent

/-- The kinds are looked at first, then whether the graph is free, and then whether it has the other
one inside. -/
theorem attachError?_eq_some_iff : w.attachError? parent child = some e ↔
    (w.graph child).kind ≠ (w.graph parent).kind ∧
        e = .kindMismatch (w.graph child).name (w.graph child).kind (w.graph parent).name
          (w.graph parent).kind ∨
      (w.graph child).kind = (w.graph parent).kind ∧
        ((∃ q, (w.graph child).parent = some q ∧ q ≠ parent ∧
            e = .alreadyAttached (w.graph child).name (w.graph q).name) ∨
          w.FreeFor parent child ∧ child ∈ w.lineage parent ∧
            e = .selfContaining (w.graph child).name) := by
  unfold attachError? FreeFor
  dsimp only
  by_cases hk : (w.graph child).kind = (w.graph parent).kind
  · cases hq : (w.graph child).parent with
    | none => by_cases hl : child ∈ w.lineage parent <;> simp [hk, hl, eq_comm]
    | some q =>
      by_cases ho : q = parent
      · by_cases hl : child ∈ w.lineage parent <;> simp [hk, ho, hl, eq_comm]
      · have ho' : parent ≠ q := fun h => ho h.symm
        simp [hk, ho, ho', eq_comm]
  · simp [hk, eq_comm]

theorem mentions_attach (hp : w.madeGraph parent = true) (hc : w.madeGraph child = true) :
    (Command.attach parent child).mentions.all w.made = true := by
  simp [Command.mentions, made, hp, hc]

theorem step_attach_of_error (hp : w.madeGraph parent = true) (hc : w.madeGraph child = true)
    (h : w.attachError? parent child = some e) :
    w.step (.attach parent child) = (w, ⟨.error e, []⟩) := by
  have hmay : w.mayAttach parent child = .error e := by rw [mayAttach, h]
  have hx : Action.execute (.attach parent child) ⟨w, []⟩ = .error e ⟨w, []⟩ := by
    unfold Action.execute Action.attach
    refine Action.bind_eq_error_iff.2 (.inl (Action.bind_eq_error_iff.2 (.inl ?_)))
    exact Action.require_eq_error_iff.2 ⟨hmay, rfl⟩
  exact step_of_refused (result_of_execute (mentions_attach hp hc) hx)

theorem step_attach_of_none (hp : w.madeGraph parent = true) (hc : w.madeGraph child = true)
    (h : w.attachError? parent child = none) : w.step (.attach parent child) =
      (w.attached parent child, ⟨.ok (.ofAnswer (.flag true)), []⟩) := by
  have hx : Action.execute (.attach parent child) ⟨w, []⟩ =
      .ok (.ofAnswer (.flag true)) ⟨w.attached parent child, []⟩ := by
    unfold Action.execute Action.attach
    refine Action.bind_eq_ok_iff.2 ⟨(), _, ?_, rfl⟩
    exact Action.require_bind_eq_ok_iff.2 ⟨(), mayAttach_eq_ok_iff.2 h, rfl⟩
  exact step_of_execute (mentions_attach hp hc) hx

theorem step_attach_eq_error_iff (hp : w.madeGraph parent = true)
    (hc : w.madeGraph child = true) :
    w.step (.attach parent child) = (w, ⟨.error e, []⟩) ↔ w.attachError? parent child = some e := by
  refine ⟨fun h => ?_, step_attach_of_error hp hc⟩
  cases ha : w.attachError? parent child with
  | none =>
    rw [step_attach_of_none hp hc ha] at h
    cases congrArg (fun r => r.2.result) h
  | some e' =>
    rw [step_attach_of_error hp hc ha] at h
    cases h
    rfl

/-! ## What attaching changes -/

/-- A graph has become a cluster of another, and nothing else has changed. -/
structure Adopts (w w' : Workspace) (parent child : GraphId) : Prop where
  /-- A name that the parent lists already keeps its place. -/
  entries_of_listed {before after : List (String × GraphId)} {old : GraphId}
    (h : (w.graph parent).clusters.entries = before ++ ((w.graph child).name, old) :: after) :
    (w'.graph parent).clusters.entries = before ++ ((w.graph child).name, child) :: after
  /-- Another name comes last. -/
  entries_of_new (h : (w.graph child).name ∉ (w.graph parent).clusters.keys) :
    (w'.graph parent).clusters.entries =
      (w.graph parent).clusters.entries ++ [((w.graph child).name, child)]
  /-- The parent of the cluster. -/
  parent_child : (w'.graph child).parent = some parent
  /-- Another graph that was listed under the name is let go. -/
  parent_old {old : GraphId} (hne : old ≠ child)
    (h : (w.graph parent).clusters.get? (w.graph child).name = some old) :
    (w'.graph old).parent = none
  /-- All others keep their parents. -/
  parent_other {g : GraphId} (hne : g ≠ child)
    (h : (w.graph parent).clusters.get? (w.graph child).name ≠ some g) :
    (w'.graph g).parent = (w.graph g).parent
  /-- All others keep their clusters. -/
  clusters_other {g : GraphId} (hne : g ≠ parent) :
    (w'.graph g).clusters = (w.graph g).clusters
  /-- Of graphs nothing changes but parents and clusters. -/
  graph (g : GraphId) : w'.graph g =
    { w.graph g with parent := (w'.graph g).parent, clusters := (w'.graph g).clusters }
  /-- Besides graphs nothing changes. -/
  rest : w' = { w with graphs := w'.graphs }

theorem adopts_attached (w : Workspace) (parent child : GraphId) :
    Adopts w (w.attached parent child) parent child where
  entries_of_listed h := by
    rw [clusters_attached, if_pos rfl, OrdMap.entries_insert_of_eq h]
  entries_of_new h := by
    rw [clusters_attached, if_pos rfl, OrdMap.entries_insert_of_notMem h]
  parent_child := by rw [parent_attached, if_pos rfl]
  parent_old hne h := by rw [parent_attached, if_neg hne, if_pos h]
  parent_other hne h := by rw [parent_attached, if_neg hne, if_neg h]
  clusters_other hne := by rw [clusters_attached, if_neg hne]
  graph g := by rw [graph_attached]
  rest := w.attached_eq_with_graphs parent child

/-! ## Attaching once more -/

theorem modifyGraph_eq_self {f : Graph → Graph} (h : f (w.graph g) = w.graph g) :
    w.modifyGraph g f = w := by
  have hset : w.graphs.modify g f = w.graphs := by
    unfold Registry.modify
    rw [show f (w.graphs.get g) = w.graphs.get g from h, Registry.set_get]
  rw [modifyGraph, hset]

/-- Where the parent lists the cluster under its name already there is nothing to change. -/
theorem attached_eq_self (hparent : (w.graph child).parent = some parent)
    (hlist : (w.graph parent).clusters.get? (w.graph child).name = some child) :
    w.attached parent child = w := by
  have hdetach : w.detachOther parent child (w.graph child).name = w := by
    rw [detachOther, hlist]
    exact if_pos rfl
  have hlisted : w.listCluster parent child = w :=
    modifyGraph_eq_self (by rw [OrdMap.insert_of_get? hlist])
  rw [attached, hdetach, hlisted]
  exact modifyGraph_eq_self (by rw [← hparent])

namespace Hierarchy

/-- The parent of a graph is not inside it. -/
theorem attachError?_of_childOf (hw : Hierarchy w)
    (hk : (w.graph child).kind = (w.graph parent).kind) (h : w.ChildOf child parent) :
    w.attachError? parent child = none := by
  refine attachError?_eq_none_iff.2 ⟨hk, .inr h, fun hmem => ?_⟩
  rw [hw.mem_lineage_iff (hw.made_parent h)] at hmem
  exact hw.acyclic child (.head' h hmem)

/-- **A graph can be attached to its parent again, without effect.** -/
theorem attached_again (hw : Hierarchy w) (hp : w.madeGraph parent = true)
    (hc : w.madeGraph child = true) (h : w.attachError? parent child = none) :
    (w.attached parent child).step (.attach parent child) =
      (w.attached parent child, ⟨.ok (.ofAnswer (.flag true)), []⟩) := by
  have hw' : Hierarchy (w.attached parent child) := hw.attached hp hc h
  have hchild : (w.attached parent child).ChildOf child parent :=
    (adopts_attached w parent child).parent_child
  have hkinds : ((w.attached parent child).graph child).kind =
      ((w.attached parent child).graph parent).kind := by
    rw [kind_attached, kind_attached]
    exact (attachError?_eq_none_iff.1 h).1
  have hnone : (w.attached parent child).attachError? parent child = none :=
    hw'.attachError?_of_childOf hkinds hchild
  have hlist : ((w.attached parent child).graph parent).clusters.get?
      ((w.attached parent child).graph child).name = some child :=
    (hw'.get?_clusters parent child _).2 ⟨hchild, rfl⟩
  rw [step_attach_of_none (hw'.made_parent hchild) (hw'.made_child hchild) hnone,
    attached_eq_self hchild hlist]

end Hierarchy

/-! ## All cases -/

/-- **Attaching is fully specified.**  After every list of commands that names no attached graph
anew, attaching one graph to another is refused for their kinds exactly if these differ.  If they
are alike it is refused exactly if the graph is a cluster of a third one, or else if going down from
it leads to the graph that is to have it.  A refusal changes nothing.  In all other cases the graph
becomes a cluster: it takes the place that its name has among the clusters, or the last one; a
different graph in this place is let go; nothing else changes.  Attaching it once more has the same
reply and changes nothing at all. -/
theorem attach_specified {cs : List Command} (h : empty.Obeys RenamesRoots cs)
    {parent child : GraphId} (hp : (empty.run cs).1.madeGraph parent = true)
    (hc : (empty.run cs).1.madeGraph child = true) :
    let w := (empty.run cs).1
    let p := w.graph parent
    let c := w.graph child
    let tried := w.step (.attach parent child)
    (tried = (w, ⟨.error (.kindMismatch c.name c.kind p.name p.kind), []⟩) ↔ c.kind ≠ p.kind) ∧
    (c.kind = p.kind → ∀ e, tried = (w, ⟨.error e, []⟩) ↔
      (∃ q, c.parent = some q ∧ q ≠ parent ∧ e = .alreadyAttached c.name (w.graph q).name) ∨
        w.FreeFor parent child ∧ w.Reaches child parent ∧ e = .selfContaining c.name) ∧
    (c.kind = p.kind → w.FreeFor parent child → ¬ w.Reaches child parent →
      tried.2 = ⟨.ok (.ofAnswer (.flag true)), []⟩ ∧ Adopts w tried.1 parent child ∧
        tried.1.step (.attach parent child) = tried) := by
  intro w p c tried
  have hw : Hierarchy w := hierarchy_run h
  have hreach : child ∈ w.lineage parent ↔ w.Reaches child parent :=
    hw.mem_lineage_iff_reaches hp
  have herror : ∀ e, tried = (w, ⟨.error e, []⟩) ↔ w.attachError? parent child = some e :=
    fun _ => step_attach_eq_error_iff hp hc
  refine ⟨?_, fun hk e => ?_, fun hk hfree hnot => ?_⟩
  · rw [herror, attachError?_eq_some_iff]
    constructor
    · rintro (⟨hk, -⟩ | ⟨-, ⟨q, -, -, he⟩ | ⟨-, -, he⟩⟩)
      · exact hk
      · cases he
      · cases he
    · exact fun hk => .inl ⟨hk, rfl⟩
  · rw [herror, attachError?_eq_some_iff, hreach]
    constructor
    · rintro (⟨hne, -⟩ | ⟨-, hr⟩)
      · exact absurd hk hne
      · exact hr
    · exact fun hr => .inr ⟨hk, hr⟩
  · have hnone : w.attachError? parent child = none := by
      refine attachError?_eq_none_iff.2 ⟨hk, ?_, fun hmem => hnot (hreach.1 hmem)⟩
      cases hq : (w.graph child).parent with
      | none => exact .inl rfl
      | some q => exact .inr (congrArg some (hfree q hq))
    have hstep : tried = (w.attached parent child, ⟨.ok (.ofAnswer (.flag true)), []⟩) :=
      step_attach_of_none hp hc hnone
    rw [hstep]
    exact ⟨rfl, adopts_attached w parent child, hw.attached_again hp hc hnone⟩

/-- A graph takes the place of another one of its name.  Then the three refusals: a graph of the
other kind, one that is a cluster elsewhere, and one that has the parent inside, two levels down. -/
theorem attach_specified_replaced :
    let cs : List Command :=
      [.newGraph .directed "top" false, .newGraph .directed "a" false,
        .newGraph .directed "b" false, .newGraph .directed "a" false,
        .newGraph .undirected "u" false, .newGraph .directed "d" false,
        .attach ⟨0⟩ ⟨1⟩, .attach ⟨0⟩ ⟨2⟩, .attach ⟨2⟩ ⟨5⟩]
    let w := (empty.run cs).1
    let v := (w.step (.attach ⟨0⟩ ⟨3⟩)).1
    empty.Obeys RenamesRoots cs ∧
      ((v.graph ⟨0⟩).clusters.entries = [("a", ⟨3⟩), ("b", ⟨2⟩)] ∧ (v.graph ⟨1⟩).parent = none ∧
        (v.graph ⟨5⟩).parent = some ⟨2⟩ ∧ (v.step (.attach ⟨0⟩ ⟨3⟩)).1 = v) ∧
      w.step (.attach ⟨0⟩ ⟨4⟩) =
        (w, ⟨.error (.kindMismatch "u" .undirected "top" .directed), []⟩) ∧
      w.step (.attach ⟨1⟩ ⟨5⟩) = (w, ⟨.error (.alreadyAttached "d" "b"), []⟩) ∧
      w.step (.attach ⟨5⟩ ⟨0⟩) = (w, ⟨.error (.selfContaining "top"), []⟩) := by
  intro cs w v
  have hcs : empty.Obeys RenamesRoots cs :=
    ⟨trivial, trivial, trivial, trivial, trivial, trivial, trivial, trivial, trivial, trivial⟩
  have made : ∀ n, n < 6 → w.madeGraph ⟨n⟩ = true := fun _ hn => decide_eq_true hn
  have h0 : w.madeGraph ⟨0⟩ = true := made 0 (by decide)
  have h5 : w.madeGraph ⟨5⟩ = true := made 5 (by decide)
  refine ⟨hcs, ?_, ?_, ?_, ?_⟩
  · have hnot : ¬ w.Reaches ⟨3⟩ ⟨0⟩ := by
      intro h
      rcases h.cases_head with h | ⟨p, hp, -⟩
      · cases h
      · cases hp
    have hplace : (w.graph ⟨0⟩).clusters.entries = [] ++ ("a", ⟨1⟩) :: [("b", ⟨2⟩)] := rfl
    obtain ⟨-, hadopts, hagain⟩ :=
      (attach_specified hcs h0 (made 3 (by decide))).2.2 rfl (fun _ hq => nomatch hq) hnot
    refine ⟨hadopts.entries_of_listed hplace, hadopts.parent_old (by decide) rfl,
      hadopts.parent_other (by decide) ?_, congrArg Prod.fst hagain⟩
    intro h
    cases h
  · exact (attach_specified hcs h0 (made 4 (by decide))).1.2 (by decide)
  · exact ((attach_specified hcs (made 1 (by decide)) h5).2.1 rfl _).2
      (.inl ⟨⟨2⟩, rfl, by decide, rfl⟩)
  · -- "top" lists "b", and "b" lists "d"
    have hinside : w.Reaches ⟨0⟩ ⟨5⟩ :=
      .head (b := ⟨2⟩) (by decide +kernel) (.single (by decide +kernel))
    exact ((attach_specified hcs h5 h0).2.1 rfl _).2 (.inr ⟨fun _ hq => (nomatch hq), hinside, rfl⟩)

end DotBuilder.Workspace
