import DotBuilder.Proofs.Cells.Shown

/-!
# Changes stay with a graph

A command on a graph, on a node or an edge that it lists, or on one of their attribute sets changes
the texts of this graph and of the graphs above it alone, although edges may end at nodes of other
graphs: what else is shown belongs to other graphs.  In the text of a graph above it changes only
the block that is printed for the graph.  Attaching also changes the graph that gets a parent and
the graph that loses it.

* `On`, `Moves` : the commands on a graph, and the graphs that attaching changes besides;
* `Owned.confined` : such a command writes cells of the graph and of new things;
* `Sound.dotText_step_eq` : what it does not write is shown as before;
* `Surrounds` : what is printed in front of the block of a graph and behind it;
* `changes_stay_with_graph` : both together.
-/

namespace DotBuilder

open Relation

/-- The graph in which a set was made. -/
def SetId.home : SetId → Option GraphId
  | defaults g _ => some g
  | node n => n.home
  | edge e => e.home
  | loose _ => none

/-- The graph in which a thing was made; a graph is its own. -/
def Object.home : Object → Option GraphId
  | graph g => some g
  | node n => n.home
  | edge e => e.home
  | set s => s.home

theorem SetId.home_maker (s : SetId) : s.maker.home = s.home := by cases s <;> rfl

namespace Section

/-- The text of a section in front of its clusters. -/
def front (s : Section) : String :=
  s.opening ++ String.join (s.defaults.map fun d => s.line (defaultsText d))

/-- The text of a section behind its clusters. -/
def back (s : Section) : String := String.join (s.statements.map s.line) ++ s.form.closing

theorem text_eq (s : Section) (clusters : String) :
    s.text clusters = s.front ++ clusters ++ s.back := by
  simp only [text, front, back, String.append_assoc]

end Section

theorem Outline.rowText_map {α : Type} (f : α → Section) (F : Forest α) :
    rowText (F.map f) = String.join (F.trees.map fun u => text (u.map f) ++ "\n") := by
  induction F with
  | nil => rfl
  | cons root below rest _ ih =>
    rw [Forest.map, rowText, ih, Forest.trees, List.map_cons, String.join_cons]
    rfl

namespace Workspace

variable {w v : Workspace} {c : Command} {g p a b : GraphId} {k : Cell} {o : Object}

/-! ## Commands on a graph -/

/-- The things that a graph holds: itself, the nodes and edges that it lists, and their sets. -/
def Holds (w : Workspace) (g : GraphId) : Object → Prop
  | .graph h => h = g
  | .node n => n ∈ (w.graph g).allNodes
  | .edge e => e ∈ (w.graph g).edges
  | .set s => ∃ c, (c, s) ∈ w.heldSets g

/-- The commands on a graph or on something that it holds, but for new names. -/
def On (w : Workspace) (g : GraphId) : Command → Prop
  | .newGraph .. | .newSet .. | .renameGraph .. | .renameNode .. => False
  | .newNode _ attributes | .newHtmlNode _ attributes => ∃ s ∈ attributes, w.Holds g (.set s)
  | .newEdge h .. | .addNode h .. | .addHtmlNode h .. | .removeNode h .. | .addEdge h .. => h = g
  | .attach h _ | .assignDefaults h .. | .setGraphStrict h _ => h = g
  | .assign o _ => w.Holds g o
  | .setStrict s _ => w.Holds g (.set s)
  | .addRow h _ | .setTable h _ => w.Holds g (.node (.html h))
  | .setPort e .. => w.Holds g (.edge e)
  | _ => True

/-- The graphs that get or lose a parent when a graph is attached to another. -/
def Moves (w : Workspace) (g : GraphId) (c : Command) (h : GraphId) : Prop :=
  ∃ child, c = .attach g child ∧
    (h = child ∨ (w.graph g).clusters.get? (w.graph child).name = some h)

/-- A cell is that of a graph or of what it made, names of nodes aside, or of something new. -/
def Confined (w : Workspace) (g : GraphId) (k : Cell) : Prop :=
  w.made k.owner = false ∨ k.owner.home = some g ∧ ∀ n, k ≠ .node n

namespace Owned

/-- What a graph holds was made in it. -/
theorem home_of_holds (hw : Owned w) (h : w.Holds g o) : o.home = some g := by
  cases o with
  | graph k => exact congrArg some h
  | node n => exact (hw.node_of_mem h).1
  | edge e => exact (hw.edge_of_mem h).1
  | set s =>
    rcases hw.set_of_mem_heldSets h with ⟨scope, rfl⟩ | ⟨n, hn, rfl⟩ | ⟨e, he, rfl⟩
    · rfl
    · exact (hw.node_of_mem hn).1
    · exact (hw.edge_of_mem he).1

theorem home_setOf (hw : Owned w) (h : w.Holds g o) : (w.setOf o).home = some g := by
  cases o with
  | node n =>
    have hset : w.Holds g (.set (w.node n).attributes) := shows_attributes h
    exact hw.home_of_holds hset
  | _ => exact hw.home_of_holds h

/-! ## What commands on a graph write -/

theorem confined_entries {s : SetId} (h : s.home = some g) : w.Confined g (.entries s) :=
  .inr ⟨s.home_maker.trans h, fun _ h => by cases h⟩

theorem confined_resolveWrites {x : Write} {r : NodeRef}
    (hle : (w.graph g).plainMade ≤ (v.graph g).plainMade) (hx : x ∈ v.resolveWrites g r) :
    w.Confined g x.cell := by
  unfold resolveWrites at hx
  cases r with
  | given n => cases hx
  | named name =>
    dsimp only at hx
    cases hn : (v.graph g).node? name with
    | some n =>
      rw [hn] at hx
      cases hx
    | none =>
      rw [hn] at hx
      rcases List.mem_cons.1 hx with rfl | hx
      · exact .inr ⟨rfl, fun _ h => by cases h⟩
      · left
        rw [owner_of_mem_plainWrites hx]
        exact made_thing_of_le (p := .plain g) hle

theorem confined_connectWrites (hg : w.madeGraph g = true) {x : Write} {source target : NodeRef}
    {own : AttrSet} (hx : x ∈ w.connectWrites g source target own) : w.Confined g x.cell := by
  have hk₁ : Keeps w (w.resolve g source).1 := Keeps.resolve w g source
  have hk₂ : Keeps w ((w.resolve g source).1.resolve g target).1 :=
    hk₁.trans (Keeps.resolve _ g target)
  simp only [connectWrites, List.mem_append] at hx
  rcases hx with hx | hx | hx
  · exact confined_resolveWrites (Nat.le_refl _) hx
  · exact confined_resolveWrites (hk₁.madeIn g hg).1 hx
  · rcases List.mem_cons.1 hx with rfl | hx
    · exact .inr ⟨rfl, fun _ h => by cases h⟩
    · left
      rw [owner_of_mem_edgeWrites hx]
      exact made_thing_of_le (p := .edges g) (hk₂.madeIn g hg).2.2

/-- **A command on a graph writes cells of the graph and of new things.** -/
theorem confined (hw : Owned w) (hon : w.On g c) {x : Write} (hx : x ∈ w.changes c) :
    w.Confined g x.cell ∨ ∃ h, w.Moves g c h ∧ x.cell = .parent h := by
  rcases endsGiven_or_addEdge c with hc | ⟨h, source, target, given, rfl⟩
  · rcases creates_or_overwrites hc hx with hnew | hold
    · exact .inl (.inl (made_of_creates_eq_false hnew))
    · generalize x.cell = k at hold
      cases c with
      | newHtmlNode name attributes =>
        obtain ⟨s, hs, hold'⟩ := hon
        obtain ⟨s', hs', rfl⟩ := List.mem_map.1 hold
        cases hs
        obtain rfl : s' = s := by simpa using hs'
        exact .inl (confined_entries (hw.home_of_holds hold'))
      | addNode | addHtmlNode | addEdge | setGraphStrict =>
        cases hon
        obtain rfl := List.mem_singleton.1 hold
        exact .inl (.inr ⟨rfl, fun _ h => by cases h⟩)
      | assignDefaults =>
        cases hon
        obtain rfl := List.mem_singleton.1 hold
        exact .inl (confined_entries rfl)
      | removeNode h name force =>
        cases hon
        simp only [overwrites, List.mem_append, List.mem_cons, List.not_mem_nil, or_false] at hold
        rcases hold with (rfl | rfl) | hold
        · exact .inl (.inr ⟨rfl, fun _ h => by cases h⟩)
        · exact .inl (.inr ⟨rfl, fun _ h => by cases h⟩)
        · cases force with
          | false => cases hold
          | true =>
            obtain rfl := List.mem_singleton.1 hold
            exact .inl (.inr ⟨rfl, fun _ h => by cases h⟩)
      | attach h child =>
        cases hon
        simp only [overwrites, List.mem_append, List.mem_cons, List.not_mem_nil, or_false] at hold
        rcases hold with (rfl | rfl) | hold
        · exact .inl (.inr ⟨rfl, fun _ h => by cases h⟩)
        · exact .inr ⟨child, ⟨child, rfl, .inl rfl⟩, rfl⟩
        · obtain ⟨x, hx, rfl⟩ := List.mem_map.1 hold
          obtain ⟨old, hmem, rfl⟩ := List.mem_map.1 hx
          have hget := Option.mem_toList.1 (List.mem_filter.1 hmem).1
          exact .inr ⟨old, ⟨child, rfl, .inr hget⟩, rfl⟩
      | assign o given =>
        obtain rfl := List.mem_singleton.1 hold
        exact .inl (confined_entries (hw.home_setOf hon))
      | setStrict s strict =>
        obtain rfl := List.mem_singleton.1 hold
        have hhome : s.home = some g := hw.home_of_holds (o := .set s) hon
        exact .inl (.inr ⟨s.home_maker.trans hhome, fun _ h => by cases h⟩)
      | addRow h sources | setTable h attributes =>
        obtain rfl := List.mem_singleton.1 hold
        exact .inl (.inr ⟨hw.home_of_holds hon, fun _ h => by cases h⟩)
      | setPort e side name compass =>
        obtain rfl := List.mem_singleton.1 hold
        exact .inl (.inr ⟨hw.home_of_holds hon, fun _ h => by cases h⟩)
      | renameGraph | renameNode => cases hon
      | _ => cases hold
  · cases hon
    obtain ⟨ha, hx⟩ := mem_changes_iff.1 hx
    have hg : w.madeGraph g = true := made_of_accepts (o := .graph g) ha (List.mem_cons_self ..)
    exact .inl (confined_connectWrites hg hx)

/-- What a graph shows of other graphs is names of nodes. -/
theorem home_of_shows (hw : Owned w) (hk : w.Shows a k) :
    k.owner.home = some a ∨ ∃ n, k = .node n := by
  cases k with
  | head h =>
    rcases hk with rfl | ⟨e, he, rfl⟩
    · exact .inl rfl
    · obtain ⟨hhome, hmade⟩ := hw.edge_of_mem he
      exact .inl (congrArg some ((hw (.ends e) hmade).2.2.2 a hhome))
  | parent h | clusters h | plainNodes h | htmlNodes h | edges h =>
    cases hk
    exact .inl rfl
  | node n => exact .inr ⟨n, rfl⟩
  | table h => exact .inl (hw.node_of_mem hk).1
  | ends e | port e side => exact .inl (hw.edge_of_mem hk).1
  | rules s => cases hk
  | entries s => exact .inl (s.home_maker.trans (hw.home_of_holds (o := .set s) hk))

theorem not_confined_of_shows (hw : Owned w) (ha : w.madeGraph a = true) (hne : a ≠ g)
    (hk : w.Shows a k) : ¬ w.Confined g k := by
  rintro (h | ⟨h, hnode⟩)
  · rw [hw.made_of_shows ha hk] at h
    cases h
  · rcases hw.home_of_shows hk with hhome | ⟨n, rfl⟩
    · exact hne (Option.some.inj (hhome.symm.trans h))
    · exact hnode n rfl

/-- What another graph shows stays as it is, unless the graph gets or loses its parent. -/
theorem matches_step (hw : Owned w) (hon : w.On g c) (ha : w.madeGraph a = true) (hne : a ≠ g)
    (hm : ¬ w.Moves g c a) (hk : w.Shows a k) : Matches 1 k w (w.step c).1 := by
  refine .of_content_eq (content_step_of_notMem ?_)
  rintro x hx rfl
  rcases hw.confined hon hx with h | ⟨b, hb, he⟩
  · exact hw.not_confined_of_shows ha hne hk h
  · rw [he] at hk
    cases hk
    exact hm hb

end Owned

/-! ## Graphs aside -/

/-- What is known of all workspaces in which attached graphs were not named anew. -/
structure Sound (w : Workspace) : Prop extends Hierarchy w, Built w

theorem renamesRoots_of_on (h : w.On g c) : w.RenamesRoots c := by
  cases c with
  | renameGraph => cases h
  | _ => trivial

theorem sound_run {cs : List Command} (h : empty.Obeys RenamesRoots cs) :
    Sound (empty.run cs).1 :=
  { hierarchy_run h, built_run cs with }

namespace Sound

theorem step (hw : Sound w) (hc : w.RenamesRoots c) : Sound (w.step c).1 :=
  { hw.toHierarchy.step hc, hw.toBuilt.step c with }

theorem madeGraph_step (hon : w.On g c) (ha : w.madeGraph a = true) :
    (w.step c).1.madeGraph a = true := by
  have hk : Keeps w (w.step c).1 := by
    refine (w.step_effect c).keeps ?_
    rintro n name rfl
    cases hon
  exact hk.madeGraph ha

/-- A graph that attaching moves has no other parent before, and is not above. -/
theorem of_moves (hw : Sound w) (hacc : w.accepts c = true) (hm : w.Moves g c a) :
    (∀ q, w.ChildOf a q → q = g) ∧ ¬ ReflTransGen w.ChildOf g a := by
  obtain ⟨child, rfl, rfl | hget⟩ := hm
  · have hg : w.madeGraph g = true := made_of_accepts (o := .graph g) hacc (List.mem_cons_self ..)
    have hnone : w.attachError? g a = none :=
      Option.isNone_iff_eq_none.1 (Bool.and_eq_true_iff.1 hacc).2
    obtain ⟨-, hparent, hnot⟩ := attachError?_eq_none_iff.1 hnone
    rw [hw.mem_lineage_iff hg] at hnot
    refine ⟨fun q hq => ?_, hnot⟩
    rcases hparent with h | h
    · exact absurd (hq.symm.trans h) (by simp)
    · exact Option.some.inj (hq.symm.trans h)
  · have hchild : w.ChildOf a g := ((hw.get?_clusters g a _).1 hget).1
    refine ⟨fun q hq => w.rightUnique_childOf hq hchild, fun h => ?_⟩
    exact hw.acyclic g (.tail' h hchild)

/-- What is below a graph aside is aside, too. -/
theorem aside_below (hw : Sound w) (hacc : w.accepts c = true) (hb : ¬ ReflTransGen w.ChildOf g b)
    (hm : ¬ w.Moves g c b) (hab : ReflTransGen w.ChildOf a b) : a ≠ g ∧ ¬ w.Moves g c a := by
  refine ⟨fun h => hb (h ▸ hab), fun h => ?_⟩
  rcases hab.cases_head with rfl | ⟨q, hq, hqb⟩
  · exact hm h
  · exact hb ((hw.of_moves hacc h).1 q hq ▸ hqb)

/-- **A command on a graph leaves the text and the lint of graphs aside as they are.** -/
theorem shown_step_eq (hw : Sound w) (hon : w.On g c) (hb : w.madeGraph b = true)
    (hnot : ¬ ReflTransGen w.ChildOf g b) (hm : ¬ w.Moves g c b) :
    (w.step c).1.dotText b = w.dotText b ∧ (w.step c).1.lint b = w.lint b := by
  by_cases hacc : w.accepts c = true
  · obtain ⟨t, ht, rfl, hu⟩ := hw.exists_clusterTree hb
    have hsame : ∀ a ∈ t.preorder, ∀ k, w.Shows a k → Matches 1 k w (w.step c).1 := by
      intro a ha k hk
      have hab : ReflTransGen w.ChildOf a t.root := (hw.mem_preorder_iff hu).1 ha
      obtain ⟨hne, hma⟩ := hw.aside_below hacc hnot hm hab
      have hmade : w.madeGraph a = true := by
        rcases hab.cases_head with rfl | ⟨q, hq, -⟩
        · exact hb
        · exact hw.made_child hq
      exact hw.owned.matches_step hon hmade hne hma hk
    have hv : Listed (w.step c).1 := hw.toListed.step c
    have hroot : (w.step c).1.madeGraph ((1 : Relabel) • t.root) = true := madeGraph_step hon hb
    exact ⟨hv.dotText_congr hsame hroot ht, hv.lint_congr hsame hroot ht⟩
  · rw [step_of_not_accepts hacc]
    exact ⟨rfl, rfl⟩

end Sound

/-! ## Blocks -/

/-- What is printed for a graph. -/
def block (w : Workspace) (g : GraphId) : String := (w.dotText g).toOption.getD ""

/-- What is printed for clusters, each with a line break behind it. -/
def blocks (w : Workspace) (gs : List GraphId) : String :=
  String.join (gs.map fun g => w.block g ++ "\n")

/-- What is printed in the text of a graph in front of the block of a graph below it, and behind. -/
inductive Surrounds (w : Workspace) (g : GraphId) : GraphId → String → String → Prop where
  /-- The block itself. -/
  | block : Surrounds w g g "" ""
  /-- The block stands in that of a cluster, between the blocks of the others. -/
  | cluster {a p : GraphId} {before after : String} {left right : List GraphId}
    (h : Surrounds w g a before after) (hl : w.clusterList p = left ++ a :: right) :
    Surrounds w g p ((w.sectionOf p).front ++ w.blocks left ++ before)
      (after ++ "\n" ++ w.blocks right ++ (w.sectionOf p).back)

namespace Sound

theorem dotText_eq_block (hw : Sound w) (hg : w.madeGraph g = true) :
    w.dotText g = .ok (w.block g) := by
  obtain ⟨t, ht, -, -⟩ := hw.exists_clusterTree hg
  rw [block, dotText, outline?, ht]
  rfl

/-- The block of a graph has the blocks of its clusters inside. -/
theorem block_eq (hw : Sound w) (hg : w.madeGraph g = true) :
    w.block g = (w.sectionOf g).front ++ w.blocks (w.clusterList g) ++ (w.sectionOf g).back := by
  have htext : ∀ t : Tree GraphId, w.madeGraph t.root = true → t.Unfolds w.clusterList →
      w.block t.root = Outline.text (t.map w.sectionOf) := by
    intro t hroot hu
    rw [block, dotText, outline?, hw.clusterTree?_of_unfolds hroot hu]
    rfl
  obtain ⟨t, -, rfl, hu⟩ := hw.exists_clusterTree hg
  have hbelow : t.below.trees.map (fun u => Outline.text (u.map w.sectionOf) ++ "\n") =
      t.below.trees.map fun u => w.block u.root ++ "\n" := by
    refine List.map_congr_left fun u hu' => ?_
    have hlisted : u.root ∈ w.clusterList t.root := by
      rw [← hu.1, Forest.roots_eq_map_trees]
      exact List.mem_map_of_mem hu'
    rw [htext u (hw.made_listed hlisted) (Forest.unfolds_of_mem_trees hu.2 hu')]
  rw [htext t hg hu, Outline.text, Section.text_eq]
  show _ ++ Outline.rowText (t.below.map w.sectionOf) ++ _ = _
  rw [Outline.rowText_map, hbelow, blocks, ← hu.1, Forest.roots_eq_map_trees, List.map_map]
  rfl

/-- What is printed for a graph is what is printed around the block and the block. -/
theorem block_of_surrounds (hw : Sound w) {before after : String} (ha : w.madeGraph a = true)
    (h : w.Surrounds g a before after) : w.block a = before ++ w.block g ++ after := by
  induction h with
  | block => simp
  | @cluster a p before after left right h hl ih =>
    have hmem : a ∈ w.clusterList p := by simp [hl]
    rw [hw.block_eq ha, hl, blocks, List.map_append, List.map_cons, String.join_append,
      String.join_cons, ih (hw.made_listed hmem)]
    simp only [String.append_assoc, blocks]

theorem exists_surrounds (hw : Sound w) (hga : ReflTransGen w.ChildOf g a) :
    ∃ before after, w.Surrounds g a before after := by
  induction hga with
  | refl => exact ⟨"", "", .block⟩
  | tail _ hbp ih =>
    obtain ⟨before, after, h⟩ := ih
    obtain ⟨left, right, hl⟩ := List.append_of_mem (hw.mem_clusterList_iff.2 hbp)
    exact ⟨_, _, .cluster h hl⟩

/-- What a block is surrounded in is printed for graphs above. -/
theorem above_of_surrounds (hw : Sound w) {before after : String}
    (h : w.Surrounds g a before after) : ReflTransGen w.ChildOf g a := by
  induction h with
  | block => exact .refl
  | @cluster a p before after left right h hl ih =>
    exact ih.tail (hw.mem_clusterList_iff.1 (by simp [hl]))

/-- The other clusters of a graph above are printed as before. -/
theorem block_sibling_eq (hw : Sound w) (hon : w.On g c) (hacc : w.accepts c = true)
    (hga : ReflTransGen w.ChildOf g a) (hap : w.ChildOf a p) (hbp : w.ChildOf b p) (hne : b ≠ a) :
    (w.step c).1.block b = w.block b := by
  have hnot : ¬ ReflTransGen w.ChildOf g b := fun h =>
    hne (hw.eq_of_common_descendant hbp hap h hga)
  have hm : ¬ w.Moves g c b := by
    intro h
    have hp : p = g := (hw.of_moves hacc h).1 p hbp
    exact hw.acyclic p (.tail' (hp ▸ hga) hap)
  rw [block, (hw.shown_step_eq hon (hw.made_child hbp) hnot hm).1, block]

/-- **What is printed around the block of a graph stays as it is.** -/
theorem surrounds_step (hw : Sound w) (hon : w.On g c) {before after : String}
    (h : w.Surrounds g a before after) : (w.step c).1.Surrounds g a before after := by
  by_cases hacc : w.accepts c = true
  · induction h with
    | block => exact .block
    | @cluster a p before after left right h hl ih =>
      have hga : ReflTransGen w.ChildOf g a := hw.above_of_surrounds h
      have hap : w.ChildOf a p := hw.mem_clusterList_iff.1 (by simp [hl])
      have hne : p ≠ g := by
        rintro rfl
        exact hw.acyclic p (.tail' hga hap)
      have hm : ¬ w.Moves g c p := fun h => (hw.of_moves hacc h).2 (hga.tail hap)
      have hsame : ∀ k, w.Shows p k → Matches 1 k w (w.step c).1 := fun k hk =>
        hw.owned.matches_step hon (hw.made_parent hap) hne hm hk
      have hsection : (w.step c).1.sectionOf p = w.sectionOf p := sectionOf_congr hsame
      have hlist : (w.step c).1.clusterList p = w.clusterList p := by
        rw [← List.map_id' (w.clusterList p)]
        exact clusterList_congr hsame
      have hblocks : ∀ l : List GraphId, (∀ b ∈ l, b ∈ w.clusterList p ∧ b ≠ a) →
          (w.step c).1.blocks l = w.blocks l := by
        intro l hb
        refine congrArg String.join (List.map_congr_left fun b hbl => ?_)
        obtain ⟨hmem, hba⟩ := hb b hbl
        rw [hw.block_sibling_eq hon hacc hga hap (hw.mem_clusterList_iff.1 hmem) hba]
      have hnodup : (left ++ a :: right).Nodup := hl ▸ hw.nodup_clusterList p
      have hleft : (w.step c).1.blocks left = w.blocks left := by
        refine hblocks left fun b hb => ⟨by simp [hl, hb], ?_⟩
        rintro rfl
        exact (List.nodup_append.1 hnodup).2.2 b hb b (List.mem_cons_self ..) rfl
      have hright : (w.step c).1.blocks right = w.blocks right := by
        refine hblocks right fun b hb => ⟨by simp [hl, hb], ?_⟩
        rintro rfl
        exact (List.nodup_cons.1 (List.nodup_append.1 hnodup).2.1).1 hb
      have hv := Surrounds.cluster ih (hlist.trans hl)
      rwa [hsection, hleft, hright] at hv
  · rw [step_of_not_accepts hacc]
    exact h

end Sound

/-! ## All commands -/

/-- **Changes stay with a graph.**  After every list of commands that names no attached graph anew,
a command on a graph or on something that it holds leaves the text and the lint of every graph as
they are that is neither this graph nor above it, but for a graph that it attaches and one that this
lets go.  In the text of a graph above it changes the block of the graph alone: what is printed in
front of the block and behind it is the same before and after. -/
theorem changes_stay_with_graph {cs : List Command} (h : empty.Obeys RenamesRoots cs)
    {g : GraphId} {c : Command} (hon : (empty.run cs).1.On g c) :
    let w := (empty.run cs).1
    let v := (w.step c).1
    (∀ a, w.madeGraph a = true → ¬ ReflTransGen (fun c p => (w.graph c).parent = some p) g a →
      ¬ w.Moves g c a → v.dotText a = w.dotText a ∧ v.lint a = w.lint a) ∧
    ∀ a, w.madeGraph a = true → ReflTransGen (fun c p => (w.graph c).parent = some p) g a →
      ∃ before after, (w.Surrounds g a before after ∧ v.Surrounds g a before after) ∧
        (w.dotText g = .ok (w.block g) ∧ w.dotText a = .ok (before ++ w.block g ++ after)) ∧
          v.dotText g = .ok (v.block g) ∧ v.dotText a = .ok (before ++ v.block g ++ after) := by
  intro w v
  have hw : Sound w := sound_run h
  have hv : Sound v := hw.step (renamesRoots_of_on hon)
  refine ⟨fun a ha hnot hm => hw.shown_step_eq hon ha hnot hm, fun a ha hga => ?_⟩
  have hg : w.madeGraph g = true := by
    rcases hga.cases_head with rfl | ⟨p, hp, -⟩
    · exact ha
    · exact hw.made_child hp
  have hg' : v.madeGraph g = true := Sound.madeGraph_step hon hg
  have ha' : v.madeGraph a = true := Sound.madeGraph_step hon ha
  obtain ⟨before, after, hbefore⟩ := hw.exists_surrounds hga
  have hafter : v.Surrounds g a before after := hw.surrounds_step hon hbefore
  refine ⟨before, after, ⟨hbefore, hafter⟩, ⟨hw.dotText_eq_block hg, ?_⟩,
    hv.dotText_eq_block hg', ?_⟩
  · rw [hw.dotText_eq_block ha, hw.block_of_surrounds ha hbefore]
  · rw [hv.dotText_eq_block ha', hv.block_of_surrounds ha' hafter]

/-- A node of a cluster gets a shape.  An edge of another graph ends at this node. -/
theorem changes_stay_with_graph_shared :
    let cs : List Command :=
      [.newGraph .directed "g" false, .newGraph .directed "c" false, .newGraph .directed "o" false,
        .attach ⟨0⟩ ⟨1⟩, .addNode ⟨1⟩ "a" .empty,
        .addEdge ⟨2⟩ (.given (.plain ⟨.graph ⟨1⟩ 0⟩)) (.named "b") .empty]
    let c : Command := .assign (.node (.plain ⟨.graph ⟨1⟩ 0⟩)) (.ofList [("shape", .text "box")])
    let w := (empty.run cs).1
    let v := (w.step c).1
    (empty.Obeys RenamesRoots cs ∧ w.On ⟨1⟩ c) ∧
      (v.dotText ⟨2⟩ = w.dotText ⟨2⟩ ∧ v.lint ⟨2⟩ = w.lint ⟨2⟩) ∧ v.block ⟨1⟩ ≠ w.block ⟨1⟩ ∧
      ∃ before after, w.dotText ⟨0⟩ = .ok (before ++ w.block ⟨1⟩ ++ after) ∧
        v.dotText ⟨0⟩ = .ok (before ++ v.block ⟨1⟩ ++ after) := by
  intro cs c w v
  have hcs : empty.Obeys RenamesRoots cs :=
    ⟨trivial, trivial, trivial, trivial, trivial, trivial, trivial⟩
  have hon : w.On ⟨1⟩ c := List.mem_singleton.2 rfl
  obtain ⟨haside, habove⟩ := changes_stay_with_graph hcs hon
  refine ⟨⟨hcs, hon⟩, haside ⟨2⟩ rfl ?_ ?_, by decide +kernel, ?_⟩
  · -- the only graph above the cluster is the first
    intro h
    rcases h.cases_head with h | ⟨p, hp, h⟩
    · cases h
    · cases hp
      rcases h.cases_head with h | ⟨q, hq, -⟩
      · cases h
      · cases hq
  · exact fun ⟨child, h, _⟩ => Command.noConfusion h
  · obtain ⟨before, after, -, ⟨-, hw⟩, -, hv⟩ := habove ⟨0⟩ rfl (.single rfl)
    exact ⟨before, after, hw, hv⟩

end Workspace

end DotBuilder
