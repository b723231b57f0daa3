import DotBuilder.Proofs.Cells.Made
import DotBuilder.Proofs.Clusters.Listed

/-!
# Who owns what

Nodes and edges belong to the graphs that made them, and sets to the things that they were made
with.  A graph lists its own nodes and edges only, an edge of a graph knows this graph, and a node
of a graph has the set that it was made with; only nodes made on their own can share sets.

* `Proper` : what a cell may hold;
* `Owned` : all cells hold what they may;
* `Owned.keeps_step` : for what is known of such workspaces, edges between names need no care;
* `owned_run` : after all lists of commands;
* `Built`, `built_run` : this and what is known of clusters, together.
-/

namespace DotBuilder

/-! ## Homes -/

/-- The graph in which something was made. -/
def Origin.home : Origin → Option GraphId
  | graph g _ => some g
  | loose _ => none

/-- The graph in which a node was made. -/
def NodeId.home : NodeId → Option GraphId
  | plain p => p.origin.home
  | html h => h.origin.home

/-- The graph in which an edge was made. -/
def EdgeId.home (e : EdgeId) : Option GraphId := e.origin.home

/-- The context of a set that was made with something else. -/
def SetId.role : SetId → Option Context
  | defaults _ scope => some scope.context
  | node _ => some .node
  | edge _ => some .edge
  | loose _ => none

namespace Workspace

variable {w w' : Workspace} {c : Command} {k : Cell} {g : GraphId}

/-! ## Proper contents -/

/-- What a cell may hold. -/
def Proper (w : Workspace) : (k : Cell) → k.Content → Prop
  | .plainNodes g, v => ∀ p ∈ v.1.values,
      NodeId.home (.plain p) = some g ∧ w.madeNode (.plain p) = true
  | .htmlNodes g, v => ∀ h ∈ v.1.values,
      NodeId.home (.html h) = some g ∧ w.madeNode (.html h) = true
  | .edges g, v => ∀ e ∈ v.1, e.home = some g ∧ w.madeEdge e = true
  | .node n, v => w.madeNode n = true →
      w.madeSet v.attributes = true ∧ (n.home.isSome = true → v.attributes = .node n)
  | .ends e, v => w.madeEdge e = true →
      w.madeGraph v.1 = true ∧ w.madeNode v.2.1 = true ∧ w.madeNode v.2.2 = true ∧
        ∀ g, e.home = some g → v.1 = g
  | .rules s, v => w.madeSet s = true → ∀ c, s.role = some c → v.1 = c
  | .entries s, v => w.madeSet s = false → v.2 = .empty
  | _, _ => True

/-- All cells hold what they may. -/
def Owned (w : Workspace) : Prop := ∀ k, w.Proper k (w.content k)

/-- What was proper is proper, as long as the things are the same that a cell is a part of. -/
theorem Proper.mono {v : k.Content} (h : w.Proper k v)
    (hm : ∀ o, w.made o = true → w'.made o = true)
    (hk : w'.made k.owner = true → w.made k.owner = true) : w'.Proper k v := by
  cases k with
  | plainNodes g => exact fun p hp => ⟨(h p hp).1, hm (.node _) (h p hp).2⟩
  | htmlNodes g => exact fun p hp => ⟨(h p hp).1, hm (.node _) (h p hp).2⟩
  | edges g => exact fun e he => ⟨(h e he).1, hm (.edge _) (h e he).2⟩
  | node n =>
    intro hn
    obtain ⟨hs, hown⟩ := h (hk hn)
    exact ⟨hm (.set _) hs, hown⟩
  | ends e =>
    intro he
    obtain ⟨hg, hs, ht, hown⟩ := h (hk he)
    exact ⟨hm (.graph _) hg, hm (.node _) hs, hm (.node _) ht, hown⟩
  | rules s =>
    intro hs
    have hs' : w'.made (.set s) = true := hs
    rw [← made_maker] at hs'
    have hold : w.made (.set s) = true := by
      rw [← made_maker]
      exact hk hs'
    exact h hold
  | entries s =>
    intro hs
    refine h (Bool.eq_false_iff.2 fun hold => ?_)
    have hnew : w'.madeSet s = true := hm (.set s) hold
    rw [hs] at hnew
    cases hnew
  | _ => trivial

/-! ## What commands write -/

theorem proper_entries {s : SetId} {v : Bool × Attrs} (hs : w.madeSet s = true) :
    w.Proper (.entries s) v := by
  intro h
  rw [hs] at h
  cases h

theorem proper_setWrites {s : SetId} {own : AttrSet} (hs : w.madeSet s = true)
    (h : ∀ c, s.role = some c → own.context = c) :
    ∀ x ∈ setWrites s own, w.Proper x.cell x.value := by
  intro x hx
  simp only [setWrites, List.mem_cons, List.not_mem_nil, or_false] at hx
  rcases hx with rfl | rfl
  · exact fun _ c hc => h c hc
  · exact proper_entries hs

theorem proper_graphWrites {g : GraphId} (hg : w.madeGraph g = true) (kind : Kind) (name : String)
    (strict : Bool) : ∀ x ∈ graphWrites g kind name strict, w.Proper x.cell x.value := by
  intro x hx
  have hset : ∀ scope, ∀ c, (SetId.defaults g scope).role = some c →
      (blankDefaults scope strict).context = c := fun scope c hc => Option.some.inj hc
  simp only [graphWrites, List.mem_append, List.mem_cons, List.not_mem_nil, or_false] at hx
  rcases hx with (rfl | rfl | rfl | rfl | rfl | rfl) | hx | hx | hx
  · trivial
  · trivial
  · trivial
  · exact fun _ h => by cases h
  · exact fun _ h => by cases h
  · exact fun _ h => by cases h
  · exact proper_setWrites (s := .defaults g .graph) hg (hset .graph) x hx
  · exact proper_setWrites (s := .defaults g .node) hg (hset .node) x hx
  · exact proper_setWrites (s := .defaults g .edge) hg (hset .edge) x hx

theorem proper_plainWrites {p : PlainId} {name : String} {attributes : Option SetId} {own : AttrSet}
    (hown : own.context = .node) (hp : w.madeNode (.plain p) = true)
    (hs : ∀ s ∈ attributes, w.madeSet s = true)
    (hnone : (NodeId.home (.plain p)).isSome = true → attributes = none) :
    ∀ x ∈ plainWrites p name attributes own, w.Proper x.cell x.value := by
  intro x hx
  rcases List.mem_cons.1 hx with rfl | hx
  · intro _
    cases attributes with
    | none => exact ⟨hp, fun _ => rfl⟩
    | some s => exact ⟨hs s rfl, fun h => nomatch hnone h⟩
  · have hset : w.madeSet (.node (.plain p)) = true := hp
    exact proper_setWrites hset (fun c hc => hown.trans (Option.some.inj hc)) x hx

theorem proper_htmlWrites {p : HtmlId} {name : String} {attributes : Option SetId} {own : AttrSet}
    (hown : own.context = .node) (hp : w.madeNode (.html p) = true)
    (hs : ∀ s ∈ attributes, w.madeSet s = true)
    (hnone : (NodeId.home (.html p)).isSome = true → attributes = none) :
    ∀ x ∈ htmlWrites p name attributes own, w.Proper x.cell x.value := by
  intro x hx
  rcases List.mem_cons.1 hx with rfl | hx
  · intro _
    cases attributes with
    | none => exact ⟨hp, fun _ => rfl⟩
    | some s => exact ⟨hs s rfl, fun h => nomatch hnone h⟩
  rcases List.mem_cons.1 hx with rfl | hx
  · trivial
  · have hset : w.madeSet (.node (.html p)) = true := hp
    exact proper_setWrites hset (fun c hc => hown.trans (Option.some.inj hc)) x hx

theorem proper_edgeWrites {e : EdgeId} {s t : NodeId} {own : AttrSet} (hown : own.context = .edge)
    (he : w.madeEdge e = true) (hg : w.madeGraph g = true) (hs : w.madeNode s = true)
    (ht : w.madeNode t = true) (hhome : ∀ h, e.home = some h → g = h) :
    ∀ x ∈ edgeWrites e g s t own, w.Proper x.cell x.value := by
  intro x hx
  simp only [edgeWrites, List.mem_cons] at hx
  rcases hx with rfl | rfl | rfl | hx
  · exact fun _ => ⟨hg, hs, ht, hhome⟩
  · trivial
  · trivial
  · exact proper_setWrites (s := .edge e) he (fun c hc => hown.trans (Option.some.inj hc)) x hx

namespace Owned

/-! ## Reading the invariant -/

theorem plain_of_mem (hw : Owned w) {p : PlainId} (h : p ∈ (w.graph g).nodes.values) :
    NodeId.home (.plain p) = some g ∧ w.madeNode (.plain p) = true :=
  hw (.plainNodes g) p h

theorem html_of_mem (hw : Owned w) {p : HtmlId} (h : p ∈ (w.graph g).htmlNodes.values) :
    NodeId.home (.html p) = some g ∧ w.madeNode (.html p) = true :=
  hw (.htmlNodes g) p h

/-- A graph lists its own nodes. -/
theorem node_of_mem (hw : Owned w) {n : NodeId} (h : n ∈ (w.graph g).allNodes) :
    n.home = some g ∧ w.madeNode n = true := by
  rcases List.mem_append.1 h with h | h
  · obtain ⟨p, hp, rfl⟩ := List.mem_map.1 h
    exact hw.plain_of_mem hp
  · obtain ⟨p, hp, rfl⟩ := List.mem_map.1 h
    exact hw.html_of_mem hp

/-- A graph lists its own edges. -/
theorem edge_of_mem (hw : Owned w) {e : EdgeId} (h : e ∈ (w.graph g).edges) :
    e.home = some g ∧ w.madeEdge e = true :=
  hw (.edges g) e h

theorem madeSet_attributes (hw : Owned w) {n : NodeId} (hn : w.madeNode n = true) :
    w.madeSet (w.node n).attributes = true :=
  (hw (.node n) hn).1

/-- A node of a graph has the set that it was made with. -/
theorem attributes_eq (hw : Owned w) {n : NodeId} (hn : w.madeNode n = true)
    (hg : n.home = some g) : (w.node n).attributes = .node n :=
  (hw (.node n) hn).2 (by rw [hg]; rfl)

/-- The context of a set that was made with something is the one that it was made for. -/
theorem context_eq (hw : Owned w) {s : SetId} {r : Context} (hs : w.madeSet s = true)
    (hr : s.role = some r) : (w.attrSet s).context = r :=
  hw (.rules s) hs r hr

/-- A set that was not made has no attributes. -/
theorem entries_eq (hw : Owned w) {s : SetId} (hs : w.madeSet s = false) :
    (w.attrSet s).entries = .empty :=
  hw (.entries s) hs

theorem madeSet_setOf (hw : Owned w) {o : Object} (ho : w.made o = true) :
    w.madeSet (w.setOf o) = true := by
  cases o with
  | node n => exact hw.madeSet_attributes ho
  | _ => exact ho

/-! ## Steps -/

/-- What an accepted command writes is proper afterwards. -/
theorem proper_of_mem_writes (hw : Owned w) (hc : c.EndsGiven) (ha : w.accepts c = true)
    {x : Write} (hx : x ∈ w.writes c) : (w.step c).1.Proper x.cell x.value := by
  have hmono : ∀ o, w.made o = true → (w.step c).1.made o = true := fun o => made_step hc
  have hold : ∀ o ∈ c.mentions, (w.step c).1.made o = true := fun o ho =>
    hmono o (made_of_accepts ha ho)
  have hnew : ∀ p : Site, c.site = some p → (w.step c).1.made (p.thing (w.tally p)) = true := by
    intro p hs
    refine made_of_creates hc ?_
    rw [creates_of_accepts ha hs, Site.maker_thing]
  generalize (w.step c).1 = w' at hmono hold hnew
  cases c with
  | newGraph kind name strict =>
    have hg : w'.madeGraph ⟨w.graphsMade⟩ = true := hnew _ rfl
    exact proper_graphWrites hg kind name strict x hx
  | newSet context html strict entries =>
    obtain ⟨r, -, hx⟩ := List.mem_flatMap.1 hx
    have hs : w'.madeSet (.loose w.setsMade) = true := hnew _ rfl
    exact proper_setWrites hs (fun c hc => nomatch hc) x hx
  | newNode name attributes =>
    have hp : w'.madeNode (.plain ⟨.loose w.plainMade⟩) = true := hnew _ rfl
    have hs : ∀ s ∈ attributes, w'.madeSet s = true := fun s hs =>
      hold (.set s) (List.mem_map_of_mem (Option.mem_toList.2 hs))
    exact proper_plainWrites rfl hp hs (fun h => by cases h) x hx
  | newHtmlNode name attributes =>
    have hp : w'.madeNode (.html ⟨.loose w.htmlMade⟩) = true := hnew _ rfl
    have hs : ∀ s ∈ attributes, w'.madeSet s = true := fun s hs =>
      hold (.set s) (List.mem_map_of_mem (Option.mem_toList.2 hs))
    rcases List.mem_append.1 hx with hx | hx
    · exact proper_htmlWrites rfl hp hs (fun h => by cases h) x hx
    · obtain ⟨s, hmem, rfl⟩ := List.mem_map.1 hx
      exact proper_entries (hs s (Option.mem_toList.1 hmem))
  | newEdge h s t =>
    have he : w'.madeEdge ⟨.loose w.edgesMade⟩ = true := hnew _ rfl
    have hg : w'.madeGraph h = true := hold (.graph h) (by simp [Command.mentions])
    have hs : w'.madeNode s = true := hold (.node s) (by simp [Command.mentions])
    have ht : w'.madeNode t = true := hold (.node t) (by simp [Command.mentions])
    exact proper_edgeWrites rfl he hg hs ht (fun g hg => by cases hg) x hx
  | addNode h name given =>
    have hp : w'.madeNode (.plain ⟨.graph h (w.graph h).plainMade⟩) = true := hnew _ rfl
    rcases List.mem_cons.1 hx with rfl | hx
    · intro p hmem
      rcases OrdMap.eq_or_mem_of_mem_values_insert hmem with rfl | hmem
      · exact ⟨rfl, hp⟩
      · exact ⟨(hw.plain_of_mem hmem).1, hmono (.node _) (hw.plain_of_mem hmem).2⟩
    · exact proper_plainWrites rfl hp (fun s hs => by cases hs) (fun _ => rfl) x hx
  | addHtmlNode h name given =>
    have hp : w'.madeNode (.html ⟨.graph h (w.graph h).htmlMade⟩) = true := hnew _ rfl
    rcases List.mem_cons.1 hx with rfl | hx
    · intro p hmem
      rcases OrdMap.eq_or_mem_of_mem_values_insert hmem with rfl | hmem
      · exact ⟨rfl, hp⟩
      · exact ⟨(hw.html_of_mem hmem).1, hmono (.node _) (hw.html_of_mem hmem).2⟩
    · exact proper_htmlWrites rfl hp (fun s hs => by cases hs) (fun _ => rfl) x hx
  | removeNode h name force =>
    simp only [writes, List.cons_append, List.nil_append, List.mem_cons] at hx
    rcases hx with rfl | rfl | hx
    · intro p hmem
      have hmem := hw.plain_of_mem (OrdMap.mem_of_mem_values_erase hmem)
      exact ⟨hmem.1, hmono (.node _) hmem.2⟩
    · intro p hmem
      have hmem := hw.html_of_mem (OrdMap.mem_of_mem_values_erase hmem)
      exact ⟨hmem.1, hmono (.node _) hmem.2⟩
    · cases force with
      | false => cases hx
      | true =>
        obtain rfl := List.mem_singleton.1 hx
        intro e hmem
        have hmem := hw.edge_of_mem (List.mem_filter.1 hmem).1
        exact ⟨hmem.1, hmono (.edge _) hmem.2⟩
  | addEdge h source target given =>
    obtain ⟨s, t, rfl, rfl⟩ := endsGiven_addEdge hc
    have he : w'.madeEdge ⟨.graph h (w.graph h).edgesMade⟩ = true := hnew _ rfl
    have hg : w'.madeGraph h = true := hold (.graph h) (by simp [Command.mentions])
    have hs : w'.madeNode s = true := hold (.node s) (by simp [Command.mentions, NodeRef.mentions])
    have ht : w'.madeNode t = true := hold (.node t) (by simp [Command.mentions, NodeRef.mentions])
    rcases List.mem_cons.1 hx with rfl | hx
    · intro e hmem
      rcases List.mem_append.1 hmem with hmem | hmem
      · exact ⟨(hw.edge_of_mem hmem).1, hmono (.edge _) (hw.edge_of_mem hmem).2⟩
      · obtain rfl := List.mem_singleton.1 hmem
        exact ⟨rfl, he⟩
    · have hhome : ∀ g, EdgeId.home ⟨.graph h (w.graph h).edgesMade⟩ = some g → h = g :=
        fun g hg => Option.some.inj hg
      exact proper_edgeWrites rfl he hg hs ht hhome x hx
  | attach parent child =>
    rcases List.mem_append.1 hx with hx | hx
    · obtain ⟨old, -, rfl⟩ := List.mem_map.1 hx
      trivial
    · simp only [List.mem_cons, List.not_mem_nil, or_false] at hx
      rcases hx with rfl | rfl <;> trivial
  | renameNode n name =>
    obtain rfl := List.mem_singleton.1 hx
    intro _
    have hn : w.madeNode n = true := made_of_accepts (o := .node n) ha (List.mem_cons_self ..)
    exact ⟨hmono (.set _) (hw.madeSet_attributes hn), (hw (.node n) hn).2⟩
  | setStrict s strict =>
    obtain rfl := List.mem_singleton.1 hx
    intro _
    have hs : w.madeSet s = true := made_of_accepts (o := .set s) ha (List.mem_cons_self ..)
    exact hw (.rules s) hs
  | assign o given =>
    obtain rfl := List.mem_singleton.1 hx
    have ho : w.made o = true := made_of_accepts ha (List.mem_cons_self ..)
    exact proper_entries (hmono (.set _) (hw.madeSet_setOf ho))
  | assignDefaults h scope given =>
    obtain rfl := List.mem_singleton.1 hx
    exact proper_entries (s := .defaults h scope) (hold (.graph h) (List.mem_cons_self ..))
  | renameGraph | setGraphStrict | addRow =>
    obtain rfl := List.mem_singleton.1 hx
    trivial
  | setTable | setPort =>
    obtain ⟨a, -, rfl⟩ := List.mem_map.1 hx
    trivial
  | _ => cases hx

theorem step_given (hw : Owned w) (hc : c.EndsGiven) : Owned (w.step c).1 := by
  intro k
  refine content_step (P := (w.step c).1.Proper) (fun x hx => ?_) (fun hk => ?_)
  · obtain ⟨ha, hx⟩ := mem_changes_iff.1 hx
    exact hw.proper_of_mem_writes hc ha hx
  · refine (hw k).mono (fun o => made_step hc) fun hnew => ?_
    rcases (made_step_iff hc k.owner).1 hnew with hold | hcreates
    · exact hold
    · rw [maker_owner] at hcreates
      obtain ⟨x, hx, hxk⟩ := exists_write_of_creates hc hcreates
      exact absurd hxk (hk x hx)

theorem run_addsTo (hw : Owned w) {given : Attrs} {cs : List Command}
    (hcs : ∀ d ∈ cs, AddsTo g given d) : Owned (w.run cs).1 := by
  induction cs generalizing w with
  | nil => exact hw
  | cons c cs ih =>
    obtain ⟨hc, hcs⟩ := List.forall_mem_cons.1 hcs
    exact ih (hw.step_given hc.endsGiven) hcs

theorem madeNode_of_node? (hw : Owned w) {x : String} {n : NodeId}
    (h : (w.graph g).node? x = some n) : w.madeNode n = true := by
  unfold Graph.node? at h
  cases hp : (w.graph g).nodes.get? x with
  | some p =>
    rw [hp] at h
    cases h
    exact (hw.plain_of_mem (OrdMap.mem_values_iff.2 ⟨x, hp⟩)).2
  | none =>
    rw [hp] at h
    obtain ⟨p, hp, rfl⟩ := Option.map_eq_some_iff.1 h
    exact (hw.html_of_mem (OrdMap.mem_values_iff.2 ⟨x, hp⟩)).2

theorem resolve (hw : Owned w) (hg : w.madeGraph g = true) (r : NodeRef) :
    Owned (w.resolve g r).1 := by
  obtain ⟨cs, hcs, hrun⟩ := resolve_eq_run hg .empty r
  rw [hrun]
  exact hw.run_addsTo hcs

/-- What commands keep that are given the ends of edges, all commands keep. -/
theorem keeps_step {holds : Workspace → Prop}
    (keeps : ∀ v d, Owned v → holds v → d.EndsGiven → holds (v.step d).1) (hw : Owned w)
    (h : holds w) (c : Command) : holds (w.step c).1 := by
  rcases endsGiven_or_addEdge c with hc | ⟨g, source, target, given, rfl⟩
  · exact keeps w c hw h hc
  · obtain ⟨cs, hcs, hrun⟩ :=
      step_addEdge_eq_run (fun x n => hw.madeNode_of_node? (x := x)) source target given
    rw [hrun]
    clear hrun
    induction cs generalizing w with
    | nil => exact h
    | cons d cs ih =>
      obtain ⟨hd, hcs⟩ := List.forall_mem_cons.1 hcs
      exact ih (hw.step_given hd.endsGiven) (keeps w d hw h hd.endsGiven) hcs

/-- **Every command keeps everything with its owner.** -/
theorem step (hw : Owned w) (c : Command) : Owned (w.step c).1 :=
  keeps_step (fun _ _ hv _ hd => hv.step_given hd) hw hw c

end Owned

theorem owned_empty : Owned empty := by
  intro k
  cases k with
  | plainNodes g | htmlNodes g => exact fun p hp => nomatch hp
  | edges g => exact fun e he => nomatch he
  | node n =>
    intro hn
    rcases n with ⟨⟨g, i⟩ | i⟩ | ⟨⟨g, i⟩ | i⟩ <;> simp [madeNode, madeGraph, empty] at hn
  | ends e =>
    intro he
    rcases e with ⟨⟨g, i⟩ | i⟩ <;> simp [madeEdge, madeGraph, empty] at he
  | rules s =>
    intro hs
    rcases s with ⟨g, scope⟩ | (⟨⟨g, i⟩ | i⟩ | ⟨⟨g, i⟩ | i⟩) | ⟨⟨g, i⟩ | i⟩ | i <;>
      simp [madeSet, madeNode, madeEdge, madeGraph, empty] at hs
  | entries s => exact fun _ => rfl
  | _ => trivial

/-- **Everything stays with its owner**, whatever commands are tried. -/
theorem owned_run (cs : List Command) : Owned (empty.run cs).1 :=
  run_keeps (fun _ c hw => hw.step c) owned_empty cs

/-- What is known of all workspaces: how graphs list and nest, and who owns what. -/
structure Built (w : Workspace) : Prop extends Listed w where
  owned : Owned w

theorem Built.step (hw : Built w) (c : Command) : Built (w.step c).1 :=
  { hw.toListed.step c with owned := hw.owned.step c }

theorem Built.run (hw : Built w) (cs : List Command) : Built (w.run cs).1 :=
  run_keeps (fun _ c hw => hw.step c) hw cs

theorem built_empty : Built empty := { listed_empty with owned := owned_empty }

theorem built_run (cs : List Command) : Built (empty.run cs).1 := built_empty.run cs

end Workspace

end DotBuilder
