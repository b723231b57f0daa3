import DotBuilder.Proofs.Locality

/-!
# One slot for each thing

A graph prints what it holds in its slots: the nodes in its two maps, the edges in its list, and its
three sets of defaults.  No node, edge or attribute set is in two slots of a workspace, though nodes
made on their own can share sets and edges can end anywhere.  So storing attributes through a
handle, whichever it is, changes what is printed for one slot at most.

* `Slot`, `heldAt?`, `setAt?` : the slots, what they hold, and its attribute set;
* `Graph.ListsOnce`, `listsOnce_run` : a graph lists nothing twice, because what it makes is new;
* `Owned.eq_of_setAt?` : different slots have different sets;
* `slots_are_separate` : all this after all lists of commands.
-/

namespace DotBuilder

/-! ## Slots -/

/-- A place in which a graph holds something that it prints with attributes. -/
inductive Slot where
  /-- The plain node under a name. -/
  | plain (g : GraphId) (name : String)
  /-- The HTML node under a name. -/
  | html (g : GraphId) (name : String)
  /-- The edge at a position. -/
  | edge (g : GraphId) (position : Nat)
  /-- The defaults for a scope. -/
  | defaults (g : GraphId) (scope : Scope)
  deriving DecidableEq, Repr

namespace Slot

/-- The graph that has a slot. -/
def graph : Slot → GraphId
  | plain g _ | html g _ | edge g _ | defaults g _ => g

/-- What the attributes in a slot are for. -/
def context : Slot → Context
  | plain .. | html .. => .node
  | edge .. => .edge
  | defaults _ scope => scope.context

end Slot

/-- The thing through which a command stores attributes. -/
def Command.handle? : Command → Option Object
  | assign o _ => some o
  | assignDefaults g scope _ => some (.set (.defaults g scope))
  | _ => none

/-- What a set belongs to, as a slot holds it. -/
def SetId.holder : SetId → Object
  | node n => .node n
  | edge e => .edge e
  | s => .set s

/-- A graph lists no node under two names, and no edge at two positions. -/
structure Graph.ListsOnce (r : Graph) : Prop where
  plain : r.nodes.Injective
  html : r.htmlNodes.Injective
  edges : r.edges.Nodup

namespace Workspace

variable {w w' : Workspace} {g h : GraphId} {s t : Slot} {o : Object} {a : SetId}

/-- What a slot holds, if it is in use. -/
def heldAt? (w : Workspace) : Slot → Option Object
  | .plain g name => ((w.graph g).nodes.get? name).map fun p => .node (.plain p)
  | .html g name => ((w.graph g).htmlNodes.get? name).map fun p => .node (.html p)
  | .edge g position => (w.graph g).edges[position]?.map .edge
  | .defaults g scope => if w.madeGraph g then some (.set (.defaults g scope)) else none

/-- The attribute set of what a slot holds. -/
def setAt? (w : Workspace) (s : Slot) : Option SetId := (w.heldAt? s).map w.setOf

/-- What is printed for a slot: the statement of a node or an edge, or the attribute list of a block
of defaults. -/
def shownAt? (w : Workspace) (s : Slot) : Option (Except Error String) :=
  (w.heldAt? s).map w.textOf

/-- A thing is in a slot. -/
inductive Occupies (w : Workspace) : Object → Slot → Prop where
  | plain {g : GraphId} {name : String} {p : PlainId}
    (h : (w.graph g).nodes.get? name = some p) : Occupies w (.node (.plain p)) (.plain g name)
  | html {g : GraphId} {name : String} {p : HtmlId}
    (h : (w.graph g).htmlNodes.get? name = some p) : Occupies w (.node (.html p)) (.html g name)
  | edge {g : GraphId} {position : Nat} {e : EdgeId}
    (h : (w.graph g).edges[position]? = some e) : Occupies w (.edge e) (.edge g position)
  | defaults {g : GraphId} (scope : Scope) (h : w.madeGraph g = true) :
    Occupies w (.set (.defaults g scope)) (.defaults g scope)

/-- What is in a slot is held by the graph that has the slot. -/
theorem Occupies.holds (h : w.Occupies o s) : w.Holds s.graph o := by
  cases h with
  | plain h =>
    exact List.mem_append_left _ (List.mem_map_of_mem (OrdMap.mem_values_iff.2 ⟨_, h⟩))
  | html h =>
    exact List.mem_append_right _ (List.mem_map_of_mem (OrdMap.mem_values_iff.2 ⟨_, h⟩))
  | edge h => exact List.mem_of_getElem? h
  | @defaults g scope =>
    let c : Context := if scope = .graph then w.graphContext g else scope.context
    refine ⟨c, List.mem_append_left _ ?_⟩
    cases scope <;> simp [c, Slot.graph, Scope.context]

theorem heldAt?_eq_some_iff : w.heldAt? s = some o ↔ w.Occupies o s := by
  constructor
  · intro h
    cases s with
    | plain g name =>
      obtain ⟨p, hp, rfl⟩ := Option.map_eq_some_iff.1 h
      exact .plain hp
    | html g name =>
      obtain ⟨p, hp, rfl⟩ := Option.map_eq_some_iff.1 h
      exact .html hp
    | edge g position =>
      obtain ⟨e, he, rfl⟩ := Option.map_eq_some_iff.1 h
      exact .edge he
    | defaults g scope =>
      obtain ⟨hg, ⟨⟩⟩ := Option.ite_none_right_eq_some.1 h
      exact .defaults scope hg
  · intro h
    cases h with
    | plain h | html h | edge h => exact Option.map_eq_some_iff.2 ⟨_, h, rfl⟩
    | defaults scope h => exact if_pos h

/-! ## Nothing is listed twice -/

theorem listsOnce_blank (kind : Kind) (name : String) (strict : Bool) :
    (Graph.blank kind name strict).ListsOnce :=
  ⟨OrdMap.injective_empty, OrdMap.injective_empty, List.nodup_nil⟩

theorem listsOnce_modifyGraph (hl : ∀ h, (w.graph h).ListsOnce) {f : Graph → Graph}
    (hf : (f (w.graph g)).ListsOnce) (h : GraphId) : ((w.modifyGraph g f).graph h).ListsOnce := by
  rw [graph_modifyGraph]
  by_cases hg : h = g
  · rw [if_pos hg]
    exact hf
  · rw [if_neg hg]
    exact hl h

namespace Owned

/-- The node that a graph makes next is not one that it lists. -/
theorem next_notMem_nodes (hw : Owned w) :
    (⟨.graph g (w.graph g).plainMade⟩ : PlainId) ∉ (w.graph g).nodes.values := by
  intro hmem
  have hmade := (hw.plain_of_mem hmem).2
  simp [madeNode] at hmade

theorem next_notMem_htmlNodes (hw : Owned w) :
    (⟨.graph g (w.graph g).htmlMade⟩ : HtmlId) ∉ (w.graph g).htmlNodes.values := by
  intro hmem
  have hmade := (hw.html_of_mem hmem).2
  simp [madeNode] at hmade

theorem next_notMem_edges (hw : Owned w) :
    (⟨.graph g (w.graph g).edgesMade⟩ : EdgeId) ∉ (w.graph g).edges := by
  intro hmem
  have hmade := (hw.edge_of_mem hmem).2
  simp [madeEdge] at hmade

theorem listsOnce_placePlain (hw : Owned w) (hl : ∀ h, (w.graph h).ListsOnce) (name : String)
    (own : AttrSet) (h : GraphId) : ((w.placePlain g name own).1.graph h).ListsOnce := by
  rw [graph_placePlain]
  by_cases hg : h = g
  · rw [if_pos hg]
    exact ⟨(hl g).plain.insert hw.next_notMem_nodes, (hl g).html, (hl g).edges⟩
  · rw [if_neg hg]
    exact hl h

theorem listsOnce_placeHtml (hw : Owned w) (hl : ∀ h, (w.graph h).ListsOnce) (name : String)
    (own : AttrSet) (h : GraphId) : ((w.placeHtml g name own).1.graph h).ListsOnce := by
  rw [graph_placeHtml]
  by_cases hg : h = g
  · rw [if_pos hg]
    exact ⟨(hl g).plain, (hl g).html.insert hw.next_notMem_htmlNodes, (hl g).edges⟩
  · rw [if_neg hg]
    exact hl h

theorem listsOnce_placeEdge (hw : Owned w) (hl : ∀ h, (w.graph h).ListsOnce) (source target : NodeId)
    (own : AttrSet) (h : GraphId) : ((w.placeEdge g source target own).1.graph h).ListsOnce := by
  rw [graph_placeEdge]
  by_cases hg : h = g
  · rw [if_pos hg]
    refine ⟨(hl g).plain, (hl g).html, ?_⟩
    refine (hl g).edges.append (List.nodup_singleton _) ?_
    exact List.disjoint_singleton.2 hw.next_notMem_edges
  · rw [if_neg hg]
    exact hl h

theorem listsOnce_resolve (hw : Owned w) (hl : ∀ h, (w.graph h).ListsOnce) (r : NodeRef)
    (h : GraphId) : ((w.resolve g r).1.graph h).ListsOnce := by
  cases r with
  | given n => exact hl h
  | named name =>
    rcases w.resolve_named g name with ⟨n, -, hr⟩ | ⟨own, -, hr⟩
    · rw [hr]
      exact hl h
    · rw [hr]
      exact hw.listsOnce_placePlain hl name own h

theorem listsOnce_connected (hw : Owned w) (hl : ∀ h, (w.graph h).ListsOnce)
    (hg : w.madeGraph g = true) (source target : NodeRef) (own : AttrSet) (h : GraphId) :
    ((w.connected g source target own).graph h).ListsOnce := by
  have hg₁ : (w.resolve g source).1.madeGraph g = true := (Keeps.resolve w g source).madeGraph hg
  have hw₁ : Owned (w.resolve g source).1 := hw.resolve hg source
  have hw₂ : Owned ((w.resolve g source).1.resolve g target).1 := hw₁.resolve hg₁ target
  have hl₁ := hw.listsOnce_resolve (g := g) hl source
  have hl₂ := hw₁.listsOnce_resolve (g := g) hl₁ target
  rw [connected_eq]
  exact hw₂.listsOnce_placeEdge hl₂ _ _ own h

/-- **No command makes a graph list anything twice.** -/
theorem listsOnce_step (hw : Owned w) (hl : ∀ h, (w.graph h).ListsOnce) (c : Command)
    (h : GraphId) : ((w.step c).1.graph h).ListsOnce := by
  have he : w.Effect c (w.step c).1 := w.step_effect c
  generalize (w.step c).1 = w' at he
  cases he with
  | newGraph kind name strict =>
    rw [graph_newGraph]
    by_cases hh : h = ⟨w.graphsMade⟩
    · rw [if_pos hh]
      exact listsOnce_blank kind name strict
    · rw [if_neg hh]
      exact hl h
  | addNode name _ _ => exact hw.listsOnce_placePlain hl name _ h
  | addHtmlNode name _ _ => exact hw.listsOnce_placeHtml hl name _ h
  | @removeNode g name force _ =>
    refine listsOnce_modifyGraph hl ⟨(hl g).plain.erase, (hl g).html.erase, ?_⟩ h
    cases force with
    | false => exact (hl g).edges
    | true => exact (hl g).edges.filter _
  | addEdge hg _ _ _ => exact hw.listsOnce_connected hl hg _ _ _ h
  | attach hp hc _ =>
    rw [graph_attached]
    exact ⟨(hl h).plain, (hl h).html, (hl h).edges⟩
  | @renameGraph g _ _ | @setGraphStrict g _ _ =>
    exact listsOnce_modifyGraph hl ⟨(hl g).plain, (hl g).html, (hl g).edges⟩ h
  | _ => exact hl h

end Owned

theorem listsOnce_run (cs : List Command) (g : GraphId) :
    ((empty.run cs).1.graph g).ListsOnce := by
  let holds (w : Workspace) : Prop := Owned w ∧ ∀ h, (w.graph h).ListsOnce
  have hstart : holds empty := ⟨owned_empty, fun _ => listsOnce_blank ..⟩
  have hkeeps : ∀ w c, holds w → holds (w.step c).1 := fun w c hw =>
    ⟨hw.1.step c, hw.1.listsOnce_step hw.2 c⟩
  exact (run_keeps hkeeps hstart cs).2 g

/-! ## What is in the slots -/

namespace Owned

/-- No two slots hold the same thing: it has one graph as its home, and this lists it once. -/
theorem eq_of_occupies (hw : Owned w) (hl : ∀ g, (w.graph g).ListsOnce) (hs : w.Occupies o s)
    (ht : w.Occupies o t) : s = t := by
  have hgraph : s.graph = t.graph :=
    Option.some.inj ((hw.home_of_holds hs.holds).symm.trans (hw.home_of_holds ht.holds))
  cases hs with
  | @plain g x p hp =>
    cases ht with
    | @plain h y _ hq =>
      obtain rfl : g = h := hgraph
      rw [(hl g).plain x y p hp hq]
  | @html g x p hp =>
    cases ht with
    | @html h y _ hq =>
      obtain rfl : g = h := hgraph
      rw [(hl g).html x y p hp hq]
  | @edge g i e he =>
    cases ht with
    | @edge h j _ hf =>
      obtain rfl : g = h := hgraph
      obtain ⟨hi, -⟩ := List.getElem?_eq_some_iff.1 he
      rw [(List.getElem?_inj hi (hl g).edges).1 (he.trans hf.symm)]
  | defaults =>
    cases ht with
    | defaults => rfl

theorem made_of_occupies (hw : Owned w) (h : w.Occupies o s) : w.made o = true := by
  have hheld : w.Holds s.graph o := h.holds
  cases h with
  | plain | html => exact (hw.node_of_mem hheld).2
  | edge => exact (hw.edge_of_mem hheld).2
  | defaults scope hg => exact hg

/-- A node in a slot has the set that it was made with; one that was made on its own, and could
share a set, is in no slot. -/
theorem attributes_of_occupies (hw : Owned w) {n : NodeId} (h : w.Occupies (.node n) s) :
    (w.node n).attributes = .node n :=
  hw.attributes_eq (hw.node_of_mem h.holds).2 (hw.node_of_mem h.holds).1

/-- The set of what a slot holds belongs to it, and is for the role that the slot has. -/
theorem setOf_of_occupies (hw : Owned w) (h : w.Occupies o s) :
    (w.setOf o).holder = o ∧ (w.setOf o).role = some s.context := by
  have hnode : ∀ n, o = .node n → w.setOf o = .node n := by
    rintro n rfl
    exact hw.attributes_of_occupies h
  cases h with
  | plain | html =>
    rw [hnode _ rfl]
    exact ⟨rfl, rfl⟩
  | edge | defaults => exact ⟨rfl, rfl⟩

/-- **No two slots have the same attribute set.** -/
theorem eq_of_setAt? (hw : Owned w) (hl : ∀ g, (w.graph g).ListsOnce) (hs : w.setAt? s = some a)
    (ht : w.setAt? t = some a) : s = t := by
  obtain ⟨o, ho, rfl⟩ := Option.map_eq_some_iff.1 hs
  obtain ⟨q, hq, hset⟩ := Option.map_eq_some_iff.1 ht
  have hos : w.Occupies o s := heldAt?_eq_some_iff.1 ho
  have hqt : w.Occupies q t := heldAt?_eq_some_iff.1 hq
  have hoq : o = q := by
    rw [← (hw.setOf_of_occupies hos).1, ← hset, (hw.setOf_of_occupies hqt).1]
  subst hoq
  exact hw.eq_of_occupies hl hos hqt

theorem context_of_setAt? (hw : Owned w) (hs : w.setAt? s = some a) :
    (w.attrSet a).context = s.context := by
  obtain ⟨o, ho, rfl⟩ := Option.map_eq_some_iff.1 hs
  have hos : w.Occupies o s := heldAt?_eq_some_iff.1 ho
  exact hw.context_eq (hw.madeSet_setOf (hw.made_of_occupies hos)) (hw.setOf_of_occupies hos).2

end Owned

/-! ## What is shown -/

theorem heldAt?_modifySet (f : AttrSet → AttrSet) (s : Slot) :
    (w.modifySet a f).heldAt? s = w.heldAt? s := by
  cases s <;> rfl

theorem nodeText_modifySet (f : AttrSet → AttrSet) {n : NodeId} (hne : (w.node n).attributes ≠ a) :
    (w.modifySet a f).nodeText n = w.nodeText n := by
  have hnode : (w.modifySet a f).node n = w.node n := rfl
  have hlabel : ∀ p, (w.modifySet a f).labelOf p = w.labelOf p := fun p => rfl
  have hset : (w.modifySet a f).attrSet (w.node n).attributes =
      w.attrSet (w.node n).attributes := by
    rw [attrSet_modifySet, if_neg hne]
  cases n with
  | plain p => simp only [nodeText, nodeAttributesText, hnode, hset]
  | html p => simp only [nodeText, nodeAttributesText, hnode, hset, hlabel]

theorem edgeText_modifySet (f : AttrSet → AttrSet) {e : EdgeId} (hne : .edge e ≠ a) :
    (w.modifySet a f).edgeText e = w.edgeText e := by
  have hedge : (w.modifySet a f).edge e = w.edge e := rfl
  have hgraph : ∀ g, (w.modifySet a f).graph g = w.graph g := fun g => rfl
  have hend : ∀ p, (w.modifySet a f).endText p = w.endText p := fun p => rfl
  simp only [edgeText, hedge, hgraph, hend, attrSet_modifySet, if_neg hne]

/-- A slot shows its own set and no other. -/
theorem textOf_modifySet (f : AttrSet → AttrSet) (h : w.Occupies o s) (hne : w.setOf o ≠ a) :
    (w.modifySet a f).textOf o = w.textOf o := by
  cases h with
  | plain | html => exact congrArg Except.ok (nodeText_modifySet f hne)
  | edge => exact congrArg Except.ok (edgeText_modifySet f hne)
  | @defaults g scope _ =>
    have hset : (w.modifySet a f).attrSet (.defaults g scope) = w.attrSet (.defaults g scope) := by
      rw [attrSet_modifySet]
      exact if_neg hne
    rw [textOf, textOf, hset]

theorem shownAt?_modifySet (f : AttrSet → AttrSet) (hs : w.setAt? s ≠ some a) :
    (w.modifySet a f).shownAt? s = w.shownAt? s := by
  rw [shownAt?, shownAt?, heldAt?_modifySet]
  cases ho : w.heldAt? s with
  | none => rw [Option.map_none, Option.map_none]
  | some o =>
    have hne : w.setOf o ≠ a := by
      intro h
      rw [setAt?, ho, Option.map_some, h] at hs
      exact hs rfl
    rw [Option.map_some, Option.map_some, textOf_modifySet f (heldAt?_eq_some_iff.1 ho) hne]

/-- Storing attributes through a handle changes the set of the handle, or nothing. -/
theorem step_of_handle {c : Command} (hc : c.handle? = some o) :
    (w.step c).1 = w ∨ ∃ f, (w.step c).1 = w.modifySet (w.setOf o) f := by
  have he : w.Effect c (w.step c).1 := w.step_effect c
  generalize (w.step c).1 = w' at he
  cases he with
  | refused | asked => exact .inl rfl
  | assign | assignDefaults =>
    cases hc
    exact .inr ⟨_, rfl⟩
  | _ => cases hc

/-- Only the slot that has the set of the handle is shown anew. -/
theorem setAt?_of_shownAt?_ne {c : Command} (hc : c.handle? = some o)
    (hne : (w.step c).1.shownAt? s ≠ w.shownAt? s) : w.setAt? s = some (w.setOf o) := by
  by_contra hs
  refine hne ?_
  rcases step_of_handle hc with h | ⟨f, h⟩
  · rw [h]
  · rw [h, shownAt?_modifySet f hs]

/-- **Everything that is printed with attributes has one slot and a set of its own.**  After every
list of commands no node, edge or block of defaults is in two slots over all graphs; the sets of
different slots are different, each with the context that its slot is for; and a command that stores
attributes through some handle changes what is printed for one slot at most, the one with the set of
the handle. -/
theorem slots_are_separate (cs : List Command) :
    let w := (empty.run cs).1
    (∀ s t o, w.heldAt? s = some o → w.heldAt? t = some o → s = t) ∧
    (∀ s t a, w.setAt? s = some a → w.setAt? t = some a → s = t) ∧
    (∀ s a, w.setAt? s = some a → (w.attrSet a).context = s.context) ∧
    (∀ c o, c.handle? = some o → ∀ s, (w.step c).1.shownAt? s ≠ w.shownAt? s →
      w.setAt? s = some (w.setOf o)) ∧
    ∀ c o, c.handle? = some o → ∀ s t, (w.step c).1.shownAt? s ≠ w.shownAt? s →
      (w.step c).1.shownAt? t ≠ w.shownAt? t → s = t := by
  intro w
  have hw : Owned w := owned_run cs
  have hl : ∀ g, (w.graph g).ListsOnce := listsOnce_run cs
  refine ⟨fun s t o hs ht => ?_, fun s t a => hw.eq_of_setAt? hl, fun s a => hw.context_of_setAt?,
    fun c o hc s => setAt?_of_shownAt?_ne hc, fun c o hc s t hs ht => ?_⟩
  · exact hw.eq_of_occupies hl (heldAt?_eq_some_iff.1 hs) (heldAt?_eq_some_iff.1 ht)
  · exact hw.eq_of_setAt? hl (setAt?_of_shownAt?_ne hc hs) (setAt?_of_shownAt?_ne hc ht)

/-- A node that lost its name to another keeps its set, and storing in it does not change what is
printed for the other.  Storing in the set of an edge changes the statement of the edge alone, though
the edge starts at a node that shares its set. -/
theorem slots_are_separate_shared :
    let cs : List Command :=
      [.newGraph .undirected "g" false, .addNode ⟨0⟩ "a" .empty, .addNode ⟨0⟩ "a" .empty,
        .newSet "node" false false .empty, .newNode "x" (some (.loose 0)),
        .newNode "y" (some (.loose 0)),
        .addEdge ⟨0⟩ (.given (.plain ⟨.loose 0⟩)) (.named "a") .empty]
    let w := (empty.run cs).1
    let weight : Attrs := .ofList [("weight", .int 2)]
    let lost : Command := .assign (.node (.plain ⟨.graph ⟨0⟩ 0⟩)) weight
    let heavy : Command := .assign (.edge ⟨.graph ⟨0⟩ 0⟩) weight
    (w.step lost).1.shownAt? (.plain ⟨0⟩ "a") = w.shownAt? (.plain ⟨0⟩ "a") ∧
      w.shownAt? (.edge ⟨0⟩ 0) = some (.ok "\"x\" -- \"a\"") ∧
      (w.step heavy).1.shownAt? (.edge ⟨0⟩ 0) = some (.ok "\"x\" -- \"a\" [weight=2]") ∧
      ∀ s, s ≠ .edge ⟨0⟩ 0 → (w.step heavy).1.shownAt? s = w.shownAt? s := by
  intro cs w weight lost heavy
  obtain ⟨-, -, -, hset, hone⟩ := slots_are_separate cs
  have hbefore : w.shownAt? (.edge ⟨0⟩ 0) = some (.ok "\"x\" -- \"a\"") := by rfl
  have hafter : (w.step heavy).1.shownAt? (.edge ⟨0⟩ 0) =
      some (.ok "\"x\" -- \"a\" [weight=2]") := by rfl
  have hchanged : (w.step heavy).1.shownAt? (.edge ⟨0⟩ 0) ≠ w.shownAt? (.edge ⟨0⟩ 0) := by
    rw [hbefore, hafter]
    simp
  refine ⟨?_, hbefore, hafter, fun s hs => ?_⟩
  · by_contra hne
    have hlost := hset lost _ rfl (.plain ⟨0⟩ "a") hne
    exact absurd hlost (by decide +kernel)
  · by_contra hne
    exact hs (hone heavy _ rfl s (.edge ⟨0⟩ 0) hne hchanged)

end Workspace

end DotBuilder
