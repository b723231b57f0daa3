import DotBuilder.Command.Perform
import DotBuilder.Proofs.Records

/-!
# When lint misses a node

Lint warns of an end of an edge if no graph of the tree lists the name of the node at this end, and
says nothing else about nodes that are missing.

* `missingNode_mem_lintTree_iff` : the warnings on a tree of graphs.
-/

namespace DotBuilder.Workspace

variable {w : Workspace} {g : GraphId} {e : EdgeId} {x : String} {known : List String}

theorem missingNode_notMem_lintSet (c : Context) (s : SetId) :
    .missingNode x ∉ (w.lintSet c s).warnings := by
  rw [lintSet, warnings_attrsFindings]
  simp

theorem missingNode_mem_lintEdge_iff :
    .missingNode x ∈ (w.lintEdge known e).warnings ↔ x ∉ known ∧ ∃ side, w.endName e side = x := by
  have hend : ∀ p : Endpoint, .missingNode x ∈ (w.lintEnd known p).warnings ↔
      x ∉ known ∧ (w.node p.node).name = x := by
    intro p
    unfold lintEnd
    by_cases hp : (w.node p.node).name ∈ known
    · rw [if_pos hp]
      constructor
      · intro h
        cases h
      · rintro ⟨hx, rfl⟩
        exact absurd hp hx
    · rw [if_neg hp]
      simp only [Report.ofWarnings, List.mem_singleton, Warning.missingNode.injEq]
      constructor
      · rintro rfl
        exact ⟨hp, rfl⟩
      · exact fun h => h.2.symm
  unfold lintEdge
  rw [Report.warnings_append, Report.warnings_append, List.mem_append, List.mem_append, hend, hend,
    or_iff_right (missingNode_notMem_lintSet _ _), ← and_or_left]
  refine and_congr_right fun _ => ⟨?_, ?_⟩
  · rintro (h | h)
    · exact ⟨.source, h⟩
    · exact ⟨.target, h⟩
  · rintro ⟨_ | _, h⟩
    · exact .inl h
    · exact .inr h

theorem missingNode_mem_lintGraph_iff :
    .missingNode x ∈ (w.lintGraph known g).warnings ↔
      x ∉ known ∧ ∃ e ∈ (w.graph g).edges, ∃ side, w.endName e side = x := by
  have hnodes : .missingNode x ∉
      (Report.concat ((w.graph g).allNodes.map fun n => w.lintSet .node (w.node n).attributes)
        ).warnings := by
    rw [Report.warnings_concat, List.flatMap_map, List.mem_flatMap]
    rintro ⟨n, -, h⟩
    exact missingNode_notMem_lintSet _ _ h
  have hedges : .missingNode x ∈
      (Report.concat ((w.graph g).edges.map (w.lintEdge known))).warnings ↔
        x ∉ known ∧ ∃ e ∈ (w.graph g).edges, ∃ side, w.endName e side = x := by
    rw [Report.warnings_concat, List.flatMap_map, List.mem_flatMap]
    simp only [missingNode_mem_lintEdge_iff]
    constructor
    · rintro ⟨e, he, hx, h⟩
      exact ⟨hx, e, he, h⟩
    · rintro ⟨hx, e, he, h⟩
      exact ⟨e, he, hx, h⟩
  unfold lintGraph
  simp only [Report.warnings_append, List.mem_append, hedges, hnodes, missingNode_notMem_lintSet,
    Report.ofErrors, List.not_mem_nil, false_or]

/-- Lint misses a node if an edge of some graph ends at a node of a name that no graph lists. -/
theorem missingNode_mem_lintTree_iff {t : Tree GraphId} :
    .missingNode x ∈ (w.lintTree t).warnings ↔
      (∀ g ∈ t.preorder, x ∉ (w.graph g).nodeNames) ∧
        ∃ g ∈ t.preorder, ∃ e ∈ (w.graph g).edges, ∃ side, w.endName e side = x := by
  have hknown : x ∉ w.knownNames t.preorder ↔ ∀ g ∈ t.preorder, x ∉ (w.graph g).nodeNames := by
    rw [knownNames, List.mem_flatMap]
    simp only [not_exists, not_and]
  rw [lintTree, Report.warnings_concat, List.flatMap_map, List.mem_flatMap, ← hknown]
  simp only [missingNode_mem_lintGraph_iff]
  constructor
  · rintro ⟨g, hg, hx, h⟩
    exact ⟨hx, g, hg, h⟩
  · rintro ⟨hx, g, hg, h⟩
    exact ⟨g, hg, hx, h⟩

end DotBuilder.Workspace
