import DotBuilder.Proofs.Clusters.Unfolding
import DotBuilder.Proofs.Outline.Reader

/-!
# Documents are unambiguous

The text of a graph without a parent says everything that is printed of the graph and its clusters,
if no name, attribute list or statement has a line break inside.

* `Plain` : a graph of which no part has a line break inside;
* `Hierarchy.read_dotText` : the text of a graph without a parent is read back as the outline of the
  graph;
* `SameContents` : two graphs of which the same is printed, down to the innermost clusters;
* `same_of_dotText_eq` : graphs without a parent that have the same text are of one kind and have
  the same contents.
-/

namespace DotBuilder.Workspace

open Relation

variable {w w₁ w₂ : Workspace} {g g₁ g₂ a : GraphId}

/-! ## Sections of graphs -/

/-- A graph whose name, attribute lists and statements have no line break inside. -/
structure Plain (w : Workspace) (g : GraphId) : Prop where
  name : '\n' ∉ (w.graph g).name.toList
  defaults (scope : Scope) : '\n' ∉ (w.attrSet (.defaults g scope)).text.toList
  nodes : ∀ n ∈ (w.graph g).allNodes, '\n' ∉ (w.nodeText n).toList
  edges : ∀ e ∈ (w.graph g).edges, '\n' ∉ (w.edgeText e).toList

instance : Decidable (w.Plain g) :=
  decidable_of_iff
    ('\n' ∉ (w.graph g).name.toList ∧
      (∀ scope ∈ [Scope.graph, .node, .edge],
        '\n' ∉ (w.attrSet (.defaults g scope)).text.toList) ∧
      (∀ n ∈ (w.graph g).allNodes, '\n' ∉ (w.nodeText n).toList) ∧
      ∀ e ∈ (w.graph g).edges, '\n' ∉ (w.edgeText e).toList)
    ⟨fun ⟨name, defaults, nodes, edges⟩ =>
      ⟨name, fun scope => defaults scope (by cases scope <;> decide), nodes, edges⟩,
    fun h => ⟨h.name, fun scope _ => h.defaults scope, h.nodes, h.edges⟩⟩

theorem head?_nodeText (n : NodeId) : (w.nodeText n).toList.head? = some '"' := by
  simp [nodeText, Text.toList_inQuotes]

theorem head?_edgeText (e : EdgeId) : (w.edgeText e).toList.head? = some '"' := by
  simp [edgeText, endText, Port.endText, Text.toList_inQuotes]

theorem mem_defaultsOf_iff {scope : Scope} {text : String} :
    (scope, text) ∈ w.defaultsOf g ↔
      (w.attrSet (.defaults g scope)).text = text ∧ text ≠ "" := by
  rw [defaultsOf, List.mem_filterMap]
  constructor
  · rintro ⟨scope', -, h⟩
    by_cases hempty : (w.attrSet (.defaults g scope')).text = ""
    · rw [if_pos hempty] at h
      cases h
    · rw [if_neg hempty] at h
      cases h
      exact ⟨rfl, hempty⟩
  · rintro ⟨rfl, hne⟩
    have hscope : scope ∈ [Scope.graph, .node, .edge] := by cases scope <;> decide
    exact ⟨scope, hscope, if_neg hne⟩

/-- A scope without a block has an empty attribute list. -/
theorem text_eq_of_defaultsOf_eq (h : w₁.defaultsOf g₁ = w₂.defaultsOf g₂) (scope : Scope) :
    (w₁.attrSet (.defaults g₁ scope)).text = (w₂.attrSet (.defaults g₂ scope)).text := by
  by_cases hempty : (w₁.attrSet (.defaults g₁ scope)).text = ""
  · by_contra hne
    have hne₂ : (w₂.attrSet (.defaults g₂ scope)).text ≠ "" := fun h₂ => hne (hempty.trans h₂.symm)
    have hmem := mem_defaultsOf_iff.2 ⟨rfl, hne₂⟩
    rw [← h] at hmem
    exact hne (mem_defaultsOf_iff.1 hmem).1
  · have hmem := mem_defaultsOf_iff.2 ⟨rfl, hempty⟩
    rw [h] at hmem
    exact (mem_defaultsOf_iff.1 hmem).1.symm

theorem Plain.sectionOf (h : w.Plain g) : (w.sectionOf g).Plain where
  name := h.name
  defaults d hd := (mem_defaultsOf_iff.1 hd).1 ▸ h.defaults d.1
  statements x hx := by
    rcases List.mem_append.1 hx with hx | hx
    · obtain ⟨n, hn, rfl⟩ := List.mem_map.1 hx
      exact ⟨h.nodes n hn, head?_nodeText n⟩
    · obtain ⟨e, he, rfl⟩ := List.mem_map.1 hx
      exact ⟨h.edges e he, head?_edgeText e⟩

theorem formOf_of_parent_none (h : (w.graph g).parent = none) :
    w.formOf g = .document (w.graph g).kind := by
  rw [formOf, h]

theorem formOf_of_childOf {p : GraphId} (h : w.ChildOf g p) : w.formOf g = .subgraph := by
  rw [formOf, h]

/-! ## Reading the text of a graph -/

namespace Hierarchy

theorem exists_childOf_of_mem_below (hw : Hierarchy w) {t : Tree GraphId}
    (ht : t.Unfolds w.clusterList) (ha : a ∈ t.below.preorder) : ∃ p, w.ChildOf a p := by
  rw [Forest.mem_preorder_iff ht.2, hw.mem_clusterList_eq_childOf, ht.1] at ha
  obtain ⟨r, hr, har⟩ := ha
  rcases har.cases_head with rfl | ⟨p, hp, -⟩
  · exact ⟨t.root, hw.mem_clusterList_iff.1 hr⟩
  · exact ⟨p, hp⟩

/-- **The text of a graph without a parent is read back as its outline.** -/
theorem read_dotText (hw : Hierarchy w) (hg : w.madeGraph g = true)
    (hroot : (w.graph g).parent = none) (h : ∀ a, ReflTransGen w.ChildOf a g → w.Plain a) :
    ∃ (t : Tree GraphId) (text : String), t.root = g ∧ t.Unfolds w.clusterList ∧
      w.dotText g = .ok text ∧ Outline.read text = some (t.map w.sectionOf) := by
  obtain ⟨t, ht, rfl, hu⟩ := hw.exists_clusterTree hg
  refine ⟨t, Outline.text (t.map w.sectionOf), rfl, hu, ?_, ?_⟩
  · rw [dotText, outline?, ht]
    rfl
  · refine Outline.read_text (formOf_of_parent_none hroot) (fun s hs => ?_) (fun s hs => ?_)
    · rw [Tree.map, Forest.preorder_map] at hs
      obtain ⟨a, ha, rfl⟩ := List.mem_map.1 hs
      obtain ⟨p, hp⟩ := hw.exists_childOf_of_mem_below hu ha
      exact formOf_of_childOf hp
    · rw [Tree.preorder_map] at hs
      obtain ⟨a, ha, rfl⟩ := List.mem_map.1 hs
      exact (h a ((hw.mem_preorder_iff hu).1 ha)).sectionOf

end Hierarchy

/-! ## What the text says -/

/-- Two graphs of which the same is printed: they have the same name, attribute lists of defaults
and statements, and their clusters have the same contents, one by one. -/
inductive SameContents (w₁ w₂ : Workspace) : GraphId → GraphId → Prop
  | intro {g₁ g₂ : GraphId} (name : (w₁.graph g₁).name = (w₂.graph g₂).name)
    (defaults : ∀ scope,
      (w₁.attrSet (.defaults g₁ scope)).text = (w₂.attrSet (.defaults g₂ scope)).text)
    (statements : (w₁.graph g₁).allNodes.map w₁.nodeText ++ (w₁.graph g₁).edges.map w₁.edgeText =
      (w₂.graph g₂).allNodes.map w₂.nodeText ++ (w₂.graph g₂).edges.map w₂.edgeText)
    (clusters : List.Forall₂ (SameContents w₁ w₂) (w₁.clusterList g₁) (w₂.clusterList g₂)) :
    SameContents w₁ w₂ g₁ g₂

theorem sameContents_of_sectionOf_eq (h : w₁.sectionOf g₁ = w₂.sectionOf g₂)
    (hc : List.Forall₂ (SameContents w₁ w₂) (w₁.clusterList g₁) (w₂.clusterList g₂)) :
    SameContents w₁ w₂ g₁ g₂ := by
  have hname : (w₁.graph g₁).name = (w₂.graph g₂).name := congrArg Section.name h
  have hdefaults : w₁.defaultsOf g₁ = w₂.defaultsOf g₂ := congrArg Section.defaults h
  have hstatements : w₁.statementsOf g₁ = w₂.statementsOf g₂ := congrArg Section.statements h
  exact .intro hname (text_eq_of_defaultsOf_eq hdefaults) hstatements hc

theorem forall₂_sameContents {F G : Forest GraphId} (hF : F.Unfolds w₁.clusterList)
    (hG : G.Unfolds w₂.clusterList) (h : F.map w₁.sectionOf = G.map w₂.sectionOf) :
    List.Forall₂ (SameContents w₁ w₂) F.roots G.roots := by
  induction F generalizing G with
  | nil =>
    cases G with
    | nil => exact .nil
    | cons root below rest => cases h
  | cons root below rest ihb ihr =>
    cases G with
    | nil => cases h
    | cons root' below' rest' =>
      obtain ⟨hroots, hbelow, hrest⟩ := hF
      obtain ⟨hroots', hbelow', hrest'⟩ := hG
      obtain ⟨hs, hb, hr⟩ := Forest.cons.inj h
      have hclusters := ihb hbelow hbelow' hb
      rw [hroots, hroots'] at hclusters
      exact .cons (sameContents_of_sectionOf_eq hs hclusters) (ihr hrest hrest' hr)

/-- **Documents are unambiguous.**  If two graphs without a parent have the same text, and no name,
attribute list or statement in one of the two has a line break inside, then the graphs are of one
kind, and all that is printed of them and their clusters is the same. -/
theorem same_of_dotText_eq {cs₁ cs₂ : List Command} (h₁ : empty.Obeys RenamesRoots cs₁)
    (h₂ : empty.Obeys RenamesRoots cs₂) :
    let w₁ := (empty.run cs₁).1
    let w₂ := (empty.run cs₂).1
    w₁.madeGraph g₁ = true → w₂.madeGraph g₂ = true →
    (w₁.graph g₁).parent = none → (w₂.graph g₂).parent = none →
    (∀ a, ReflTransGen (fun c p => (w₁.graph c).parent = some p) a g₁ → w₁.Plain a) →
    (∀ a, ReflTransGen (fun c p => (w₂.graph c).parent = some p) a g₂ → w₂.Plain a) →
    w₁.dotText g₁ = w₂.dotText g₂ →
    (w₁.graph g₁).kind = (w₂.graph g₂).kind ∧ SameContents w₁ w₂ g₁ g₂ := by
  intro w₁ w₂ hg₁ hg₂ hroot₁ hroot₂ hplain₁ hplain₂ htext
  obtain ⟨t₁, text₁, rfl, hu₁, hd₁, hr₁⟩ := (hierarchy_run h₁).read_dotText hg₁ hroot₁ hplain₁
  obtain ⟨t₂, text₂, rfl, hu₂, hd₂, hr₂⟩ := (hierarchy_run h₂).read_dotText hg₂ hroot₂ hplain₂
  -- The texts are one text, and a text has one outline at most.
  have htexts : text₁ = text₂ := Except.ok.inj (hd₁.symm.trans (htext.trans hd₂))
  have htrees : t₁.map w₁.sectionOf = t₂.map w₂.sectionOf :=
    Option.some.inj (hr₁.symm.trans (htexts ▸ hr₂))
  have hroots : w₁.sectionOf t₁.root = w₂.sectionOf t₂.root := congrArg Tree.root htrees
  have hbelow : t₁.below.map w₁.sectionOf = t₂.below.map w₂.sectionOf := congrArg Tree.below htrees
  constructor
  · have hform : w₁.formOf t₁.root = w₂.formOf t₂.root := congrArg Section.form hroots
    rw [formOf_of_parent_none hroot₁, formOf_of_parent_none hroot₂] at hform
    exact Form.document.inj hform
  · have hclusters := forall₂_sameContents hu₁.2 hu₂.2 hbelow
    rw [hu₁.1, hu₂.1] at hclusters
    exact sameContents_of_sectionOf_eq hroots hclusters

/-- A document built in two ways: with a new name or without, with nodes that an edge makes or that
are there before, and with a cluster that is filled after it is attached or before. -/
theorem same_of_dotText_eq_built_twice :
    let cs₁ : List Command :=
      [.newGraph .directed "g" false, .newGraph .directed "c" false, .attach ⟨0⟩ ⟨1⟩,
        .addEdge ⟨1⟩ (.named "x") (.named "y") .empty]
    let cs₂ : List Command :=
      [.newGraph .directed "h" true, .newGraph .directed "c" false, .addNode ⟨1⟩ "x" .empty,
        .addEdge ⟨1⟩ (.named "x") (.named "y") .empty, .renameGraph ⟨0⟩ "g", .attach ⟨0⟩ ⟨1⟩]
    let w₁ := (empty.run cs₁).1
    let w₂ := (empty.run cs₂).1
    (empty.Obeys RenamesRoots cs₁ ∧ empty.Obeys RenamesRoots cs₂) ∧
      (w₁.madeGraph ⟨0⟩ = true ∧ w₂.madeGraph ⟨0⟩ = true) ∧
      ((w₁.graph ⟨0⟩).parent = none ∧ (w₂.graph ⟨0⟩).parent = none) ∧
      w₁.dotText ⟨0⟩ = w₂.dotText ⟨0⟩ ∧
      (w₁.graph ⟨0⟩).kind = (w₂.graph ⟨0⟩).kind ∧ SameContents w₁ w₂ ⟨0⟩ ⟨0⟩ := by
  intro cs₁ cs₂ w₁ w₂
  have h₁ : empty.Obeys RenamesRoots cs₁ := ⟨trivial, trivial, trivial, trivial, trivial⟩
  have h₂ : empty.Obeys RenamesRoots cs₂ :=
    ⟨trivial, trivial, trivial, trivial, rfl, trivial, trivial⟩
  let t : Tree GraphId := ⟨⟨0⟩, .cons ⟨1⟩ .nil .nil⟩
  have hu₁ : t.Unfolds w₁.clusterList := ⟨rfl, rfl, trivial, trivial⟩
  have hu₂ : t.Unfolds w₂.clusterList := ⟨rfl, rfl, trivial, trivial⟩
  have hall₁ : ∀ a ∈ t.preorder, w₁.Plain a := by decide +kernel
  have hall₂ : ∀ a ∈ t.preorder, w₂.Plain a := by decide +kernel
  have htext : w₁.dotText ⟨0⟩ = w₂.dotText ⟨0⟩ := by decide +kernel
  refine ⟨⟨h₁, h₂⟩, ⟨rfl, rfl⟩, ⟨rfl, rfl⟩, htext, ?_⟩
  refine same_of_dotText_eq h₁ h₂ rfl rfl rfl rfl (fun a ha => ?_) (fun a ha => ?_) htext
  · exact hall₁ a (((hierarchy_run h₁).mem_preorder_iff hu₁).2 ha)
  · exact hall₂ a (((hierarchy_run h₂).mem_preorder_iff hu₂).2 ha)

end DotBuilder.Workspace
