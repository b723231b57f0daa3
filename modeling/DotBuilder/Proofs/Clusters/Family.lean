import DotBuilder.Proofs.Effect

/-!
# What commands do to the families of graphs

The kinds, names, parents and clusters of all graphs are changed by three commands only: making a
graph, naming it anew, and attaching it.  `Workspace.Effect.family` says so, and the lemmas before
it say what these three do.

* `parent_attached`, `clusters_attached` : attaching lets one other cluster go at most;
* `attachError?_eq_none_iff` : what can be attached.
-/

namespace DotBuilder.Workspace

variable {w : Workspace}

/-! ## Single graphs -/

theorem graph_modifyGraph (g h : GraphId) (f : Graph → Graph) :
    (w.modifyGraph g f).graph h = if h = g then f (w.graph g) else w.graph h := rfl

theorem graph_newGraph (kind : Kind) (name : String) (strict : Bool) (h : GraphId) :
    (w.newGraph kind name strict).1.graph h =
      if h = ⟨w.graphsMade⟩ then .blank kind name strict else w.graph h := rfl

theorem graph_newGraph_of_made {kind : Kind} {name : String} {strict : Bool} {g : GraphId}
    (hg : w.madeGraph g) : (w.newGraph kind name strict).1.graph g = w.graph g := by
  have hne : g ≠ ⟨w.graphsMade⟩ := by
    rintro rfl
    exact Nat.lt_irrefl _ (of_decide_eq_true hg)
  rw [graph_newGraph, if_neg hne]

theorem graph_setParent (g h : GraphId) (parent : Option GraphId) :
    (w.setParent g parent).graph h =
      if h = g then { w.graph g with parent := parent } else w.graph h := rfl

theorem graph_placePlain (g h : GraphId) (name : String) (attributes : AttrSet) :
    (w.placePlain g name attributes).1.graph h =
      if h = g then
        { w.graph g with
          nodes := (w.graph g).nodes.insert name ⟨.graph g (w.graph g).plainMade⟩
          plainMade := (w.graph g).plainMade + 1 }
      else w.graph h := rfl

theorem graph_placeHtml (g h : GraphId) (name : String) (attributes : AttrSet) :
    (w.placeHtml g name attributes).1.graph h =
      if h = g then
        { w.graph g with
          htmlNodes := (w.graph g).htmlNodes.insert name ⟨.graph g (w.graph g).htmlMade⟩
          htmlMade := (w.graph g).htmlMade + 1 }
      else w.graph h := rfl

theorem graph_placeEdge (g h : GraphId) (source target : NodeId) (attributes : AttrSet) :
    (w.placeEdge g source target attributes).1.graph h =
      if h = g then
        { w.graph g with
          edges := (w.graph g).edges ++ [⟨.graph g (w.graph g).edgesMade⟩]
          edgesMade := (w.graph g).edgesMade + 1 }
      else w.graph h := rfl

/-! ## Commands that leave all families as they are -/

/-- The same graphs were made, and each has the same kind, name, parent and clusters. -/
structure SameFamilies (w w' : Workspace) : Prop where
  graphsMade : w'.graphsMade = w.graphsMade
  kind (g : GraphId) : (w'.graph g).kind = (w.graph g).kind
  name (g : GraphId) : (w'.graph g).name = (w.graph g).name
  parent (g : GraphId) : (w'.graph g).parent = (w.graph g).parent
  clusters (g : GraphId) : (w'.graph g).clusters = (w.graph g).clusters

namespace SameFamilies

theorem refl (w : Workspace) : SameFamilies w w :=
  ⟨rfl, fun _ => rfl, fun _ => rfl, fun _ => rfl, fun _ => rfl⟩

theorem trans {u v : Workspace} (h : SameFamilies u v) (h' : SameFamilies v w) :
    SameFamilies u w where
  graphsMade := h'.graphsMade.trans h.graphsMade
  kind g := (h'.kind g).trans (h.kind g)
  name g := (h'.name g).trans (h.name g)
  parent g := (h'.parent g).trans (h.parent g)
  clusters g := (h'.clusters g).trans (h.clusters g)

/-- A change of one graph that leaves its kind, name, parent and clusters alone. -/
theorem of_graph {w' : Workspace} {g : GraphId} {r : Graph} (hm : w'.graphsMade = w.graphsMade)
    (hg : ∀ h, w'.graph h = if h = g then r else w.graph h) (hk : r.kind = (w.graph g).kind)
    (hn : r.name = (w.graph g).name) (hp : r.parent = (w.graph g).parent)
    (hc : r.clusters = (w.graph g).clusters) : SameFamilies w w' := by
  refine ⟨hm, ?_, ?_, ?_, ?_⟩ <;> intro h <;> rw [hg] <;> by_cases hh : h = g <;>
    simp [hh, hk, hn, hp, hc]

theorem placePlain (w : Workspace) (g : GraphId) (name : String) (attributes : AttrSet) :
    SameFamilies w (w.placePlain g name attributes).1 :=
  of_graph rfl (w.graph_placePlain g · name attributes) rfl rfl rfl rfl

theorem placeHtml (w : Workspace) (g : GraphId) (name : String) (attributes : AttrSet) :
    SameFamilies w (w.placeHtml g name attributes).1 :=
  of_graph rfl (w.graph_placeHtml g · name attributes) rfl rfl rfl rfl

theorem placeEdge (w : Workspace) (g : GraphId) (source target : NodeId) (attributes : AttrSet) :
    SameFamilies w (w.placeEdge g source target attributes).1 :=
  of_graph rfl (w.graph_placeEdge g · source target attributes) rfl rfl rfl rfl

theorem resolve (w : Workspace) (g : GraphId) (r : NodeRef) :
    SameFamilies w (w.resolve g r).1 := by
  cases r with
  | given n => exact refl w
  | named name =>
    unfold Workspace.resolve
    dsimp only
    split
    · exact refl w
    · exact placePlain w g name _

theorem connected (w : Workspace) (g : GraphId) (source target : NodeRef) (attributes : AttrSet) :
    SameFamilies w (w.connected g source target attributes) :=
  ((resolve w g source).trans (resolve _ g target)).trans (placeEdge _ g _ _ attributes)

end SameFamilies

/-! ## Attaching -/

theorem attachError?_eq_none_iff {parent child : GraphId} :
    w.attachError? parent child = none ↔
      (w.graph child).kind = (w.graph parent).kind ∧
        ((w.graph child).parent = none ∨ (w.graph child).parent = some parent) ∧
          child ∉ w.lineage parent := by
  unfold attachError?
  dsimp only
  by_cases hk : (w.graph child).kind = (w.graph parent).kind
  · cases hp : (w.graph child).parent with
    | none => by_cases hl : child ∈ w.lineage parent <;> simp [hk, hl]
    | some other =>
      by_cases ho : other = parent <;> by_cases hl : child ∈ w.lineage parent <;>
        simp [hk, ho, hl]
  · simp [hk]

theorem graphsMade_detachOther (parent child : GraphId) (name : String) :
    (w.detachOther parent child name).graphsMade = w.graphsMade := by
  unfold detachOther
  split
  · split <;> rfl
  · rfl

/-- The graph that the parent lists under the name is let go, unless it is the child. -/
theorem graph_detachOther (parent child g : GraphId) (name : String) :
    (w.detachOther parent child name).graph g =
      if (w.graph parent).clusters.get? name = some g ∧ g ≠ child then
        { w.graph g with parent := none }
      else w.graph g := by
  unfold detachOther
  cases hc : (w.graph parent).clusters.get? name with
  | none => simp
  | some old =>
    simp only [Option.some.injEq]
    by_cases ho : old = child
    · rw [if_pos ho, if_neg]
      rintro ⟨rfl, hg⟩
      exact hg ho
    · rw [if_neg ho, graph_setParent]
      by_cases hg : g = old
      · subst hg
        simp [ho]
      · have hg' : ¬ old = g := fun h => hg h.symm
        simp [hg, hg']

theorem graphsMade_attached (parent child : GraphId) :
    (w.attached parent child).graphsMade = w.graphsMade :=
  graphsMade_detachOther parent child _

/-- What attaching changes of a graph: the child gets its parent, the parent lists it, and another
graph that had the child's place is let go. -/
theorem graph_attached (parent child g : GraphId) :
    (w.attached parent child).graph g =
      { w.graph g with
        parent :=
          if g = child then some parent
          else if (w.graph parent).clusters.get? (w.graph child).name = some g then none
          else (w.graph g).parent
        clusters :=
          if g = parent then (w.graph parent).clusters.insert (w.graph child).name child
          else (w.graph g).clusters } := by
  unfold attached listCluster
  rw [graph_setParent, graph_modifyGraph, graph_modifyGraph]
  simp only [graph_detachOther]
  by_cases hc : g = child
  · subst hc
    by_cases hp : g = parent <;> simp [hp]
  · by_cases hp : g = parent
    · subst hp
      by_cases ho : (w.graph g).clusters.get? (w.graph child).name = some g <;> simp [hc, ho]
    · by_cases ho : (w.graph parent).clusters.get? (w.graph child).name = some g <;>
        simp [hc, hp, ho]

theorem kind_attached (parent child g : GraphId) :
    ((w.attached parent child).graph g).kind = (w.graph g).kind := by
  rw [graph_attached]

theorem name_attached (parent child g : GraphId) :
    ((w.attached parent child).graph g).name = (w.graph g).name := by
  rw [graph_attached]

theorem parent_attached (parent child g : GraphId) :
    ((w.attached parent child).graph g).parent =
      if g = child then some parent
      else if (w.graph parent).clusters.get? (w.graph child).name = some g then none
      else (w.graph g).parent := by
  rw [graph_attached]

theorem clusters_attached (parent child g : GraphId) :
    ((w.attached parent child).graph g).clusters =
      if g = parent then (w.graph parent).clusters.insert (w.graph child).name child
      else (w.graph g).clusters := by
  rw [graph_attached]

/-! ## All commands -/

/-- What a command can do to the families of graphs. -/
inductive FamilyChange (w : Workspace) : Command → Workspace → Prop where
  | same {c : Command} {w' : Workspace} (h : SameFamilies w w') : FamilyChange w c w'
  | newGraph (kind : Kind) (name : String) (strict : Bool) :
    FamilyChange w (.newGraph kind name strict) (w.newGraph kind name strict).1
  | renameGraph {g : GraphId} (name : String) (hg : w.madeGraph g) :
    FamilyChange w (.renameGraph g name) (w.renameGraph g name)
  | attach {parent child : GraphId} (hp : w.madeGraph parent) (hc : w.madeGraph child)
    (h : w.attachError? parent child = none) :
    FamilyChange w (.attach parent child) (w.attached parent child)

theorem Effect.family {c : Command} {w' : Workspace} (h : w.Effect c w') :
    w.FamilyChange c w' := by
  cases h with
  | newGraph kind name strict => exact .newGraph kind name strict
  | renameGraph name hg => exact .renameGraph name hg
  | attach hp hc h => exact .attach hp hc h
  | addNode name hg h => exact .same (.placePlain w _ name _)
  | addHtmlNode name hg h => exact .same (.placeHtml w _ name _)
  | addEdge hg hs ht h => exact .same (.connected w _ _ _ _)
  | @removeNode g name force hg =>
    exact .same (.of_graph rfl (w.graph_modifyGraph g · _) rfl rfl rfl rfl)
  | @setGraphStrict g strict hg =>
    exact .same (.of_graph rfl (w.graph_modifyGraph g · _) rfl rfl rfl rfl)
  | _ => exact .same ⟨rfl, fun _ => rfl, fun _ => rfl, fun _ => rfl, fun _ => rfl⟩

end DotBuilder.Workspace
