import DotBuilder.Proofs.Order.Relabel

/-!
# Commands that see the same

What a command does depends on a few cells only: names, strictness, what nodes and edges are, and
the stores that it writes; parents count only where a graph is attached.  In workspaces in which
these match, the command is accepted or refused alike and writes the same, under other identifiers.

* `Sees` : what decides whether a command is accepted matches;
* `Sees.accepts_smul`, `Sees.targets_smul` : it is accepted alike, and is to write the same stores;
* `Agrees` : the stores that it writes and the next numbers match, too;
* `Agrees.changes_smul`, `Agrees.event_smul` : then it writes the same and makes the same.
-/

namespace DotBuilder.Workspace

open Relation

variable {σ : Relabel} {w v : Workspace} {c : Command} {g a : GraphId} {k : Cell} {o : Object}

/-- What decides whether a command is accepted matches. -/
structure Sees (σ : Relabel) (c : Command) (w v : Workspace) : Prop where
  /-- What the command refers to was made in both workspaces or in neither. -/
  made (o : Object) (ho : o ∈ c.mentions) : v.made (σ • o) = w.made o
  /-- The cells that are no stores match, but for parents, unless the command attaches a graph. -/
  fixed (k : Cell) (hk : w.made k.owner = true) (hs : k.isStore = false)
    (hp : c.attaches = true ∨ ∀ g, k ≠ .parent g) : Matches σ k w v

/-- What decides what a command writes matches. -/
structure Agrees (σ : Relabel) (c : Command) (w v : Workspace) : Prop extends Sees σ c w v where
  stores (k : Cell) (hk : k ∈ w.stores c) : Matches σ k w v
  next (s : Series) (hs : w.counted c = some s) : σ s (w.count s) = v.count s

theorem mem_stores_iff : k ∈ w.stores c ↔
    w.accepts c = true ∧ k ∈ w.overwrites c ∧ k.isStore = true := by
  unfold stores targets
  by_cases h : w.accepts c = true <;> simp [h]

theorem mem_targets_of_mem_stores (h : k ∈ w.stores c) : k ∈ w.targets c := by
  obtain ⟨-, hk, hs⟩ := mem_stores_iff.1 h
  exact List.mem_filter.2 ⟨hk, hs⟩

namespace Sees

variable (h : Sees σ c w v)

include h

/-! ## Looking things up -/

theorem head (hg : w.madeGraph g = true) : Matches σ (.head g) w v :=
  h.fixed _ hg rfl (.inr nofun)

theorem node {n : NodeId} (hn : w.madeNode n = true) : Matches σ (.node n) w v :=
  h.fixed _ hn rfl (.inr nofun)

theorem ends {e : EdgeId} (he : w.madeEdge e = true) : Matches σ (.ends e) w v :=
  h.fixed _ he rfl (.inr nofun)

theorem rules {s : SetId} (hs : w.madeSet s = true) : Matches σ (.rules s) w v := by
  refine h.fixed _ ?_ rfl (.inr nofun)
  show w.made (Object.set s).maker = true
  rw [made_maker]
  exact hs

theorem setOf_smul (ho : w.made o = true) : v.setOf (σ • o) = σ • w.setOf o := by
  cases o with
  | node n =>
    show (v.node (σ • n)).attributes = _
    rw [(h.node ho).node_eq]
    rfl
  | _ => rfl

theorem blankNodeSet_smul (hg : w.madeGraph g = true) (html : Bool) :
    v.blankNodeSet (σ • g) html = w.blankNodeSet g html := by
  rw [blankNodeSet, (h.head hg).strict_eq, blankNodeSet]

theorem blankEdgeSet_smul (hg : w.madeGraph g = true) :
    v.blankEdgeSet (σ • g) = w.blankEdgeSet g := by
  rw [blankEdgeSet, (h.head hg).strict_eq, blankEdgeSet]

theorem check_smul {s : SetId} (hs : w.madeSet s = true) (given : Attrs) :
    (v.attrSet (σ • s)).check given = (w.attrSet s).check given := by
  unfold AttrSet.check
  rw [(h.rules hs).context_eq, (h.rules hs).setStrict_eq]

theorem endName_smul (hw : Owned w) {e : EdgeId} (he : w.madeEdge e = true) (side : Side) :
    (v.node ((v.edge (σ • e)).endAt side).node).name =
      (w.node ((w.edge e).endAt side).node).name := by
  have hnode : w.madeNode ((w.edge e).endAt side).node = true := by
    obtain ⟨-, hs, ht, -⟩ := hw (.ends e) he
    cases side with
    | source => exact hs
    | target => exact ht
  rw [(h.ends he).endNode_eq, (h.node hnode).node_eq]

theorem touches_smul (hw : Owned w) {e : EdgeId} (he : w.madeEdge e = true) (name : String) :
    v.touches name (σ • e) = w.touches name e := by
  have hsource : (v.node (v.edge (σ • e)).source.node).name =
      (w.node (w.edge e).source.node).name := h.endName_smul hw he .source
  have htarget : (v.node (v.edge (σ • e)).target.node).name =
      (w.node (w.edge e).target.node).name := h.endName_smul hw he .target
  rw [touches, hsource, htarget, touches]

/-- What attaching sees of the graphs above is the same. -/
theorem above_smul_iff (hc : c.attaches = true) (hw : Rooted w) (hg : w.madeGraph g = true) :
    ReflTransGen v.ChildOf (σ • g) (σ • a) ↔ ReflTransGen w.ChildOf g a := by
  have hparent : ∀ b, w.madeGraph b = true →
      (v.graph (σ • b)).parent = (w.graph b).parent.map fun p => σ • p := fun b hb =>
    (h.fixed (.parent b) hb rfl (.inl hc)).parent_eq
  constructor
  · intro hga
    generalize hx : σ • g = x at hga
    induction hga using ReflTransGen.head_induction_on generalizing g with
    | refl => rw [smul_left_cancel σ hx]
    | @head x y hxy _ ih =>
      subst hx
      rw [ChildOf, hparent g hg] at hxy
      obtain ⟨p, hp, rfl⟩ := Option.map_eq_some_iff.1 hxy
      exact .head hp (ih (hw.made_parent hp) rfl)
  · intro hga
    induction hga using ReflTransGen.head_induction_on with
    | refl => exact .refl
    | @head g p hp _ ih =>
      have hp' : v.ChildOf (σ • g) (σ • p) := by
        rw [ChildOf, hparent g hg, hp]
        rfl
      exact .head hp' (ih (hw.made_parent hp))

/-! ## Being accepted -/

theorem all_made_smul : (σ • c).mentions.all v.made = c.mentions.all w.made := by
  rw [Command.mentions_smul, List.all_map]
  refine Bool.eq_iff_iff.2 ?_
  rw [List.all_eq_true, List.all_eq_true]
  exact forall₂_congr fun o ho => by rw [Function.comp_apply, h.made o ho]

theorem attachError?_smul (hw : Rooted w) (hv : Rooted v) {parent child : GraphId}
    (hc : c = .attach parent child) (hp : w.made (.graph parent) = true)
    (hm : w.made (.graph child) = true) :
    (v.attachError? (σ • parent) (σ • child)).isNone = (w.attachError? parent child).isNone := by
  have hatt : c.attaches = true := hc ▸ rfl
  have hp' : v.madeGraph (σ • parent) = true := by
    have hmade := h.made (.graph parent) (by simp [hc, Command.mentions])
    rw [hp] at hmade
    exact hmade
  have hparent : (v.graph (σ • child)).parent = (w.graph child).parent.map fun p => σ • p :=
    (h.fixed (.parent child) hm rfl (.inl hatt)).parent_eq
  have hnone : (v.graph (σ • child)).parent = none ↔ (w.graph child).parent = none := by
    rw [hparent, Option.map_eq_none_iff]
  have hsome : (v.graph (σ • child)).parent = some (σ • parent) ↔
      (w.graph child).parent = some parent := by
    rw [hparent, Option.map_eq_some_iff]
    constructor
    · rintro ⟨p, hp, he⟩
      rw [hp, smul_left_cancel σ he]
    · exact fun hp => ⟨parent, hp, rfl⟩
  rw [Bool.eq_iff_iff, Option.isNone_iff_eq_none, Option.isNone_iff_eq_none,
    attachError?_eq_none_iff, attachError?_eq_none_iff, (h.head hm).kind_eq, (h.head hp).kind_eq,
    hnone, hsome, hv.mem_lineage_iff hp', hw.mem_lineage_iff hp, h.above_smul_iff hatt hw hp]

/-- **A command that sees the same is accepted or refused alike.** -/
theorem accepts_smul (hw : Built w) (hv : Built v) : v.accepts (σ • c) = w.accepts c := by
  have hall := h.all_made_smul
  cases hm : c.mentions.all w.made with
  | false =>
    rw [hm] at hall
    unfold accepts
    rw [hall, hm]
    rfl
  | true =>
    rw [hm] at hall
    have hmade : ∀ o ∈ c.mentions, w.made o = true := List.all_eq_true.1 hm
    unfold accepts
    rw [hall, hm]
    cases c with
    | addNode g name given =>
      have hset := h.blankNodeSet_smul (hmade (.graph g) (List.mem_cons_self ..)) false
      exact congrArg (fun r => true && (AttrSet.check r given).isOk) hset
    | addHtmlNode g name given =>
      have hset := h.blankNodeSet_smul (hmade (.graph g) (List.mem_cons_self ..)) true
      exact congrArg (fun r => true && (AttrSet.check r given).isOk) hset
    | addEdge g source target given =>
      have hset := h.blankEdgeSet_smul (hmade (.graph g) (List.mem_cons_self ..))
      exact congrArg (fun r => true && (AttrSet.check r given).isOk) hset
    | attach parent child =>
      have hp := hmade (.graph parent) (List.mem_cons_self ..)
      have hc := hmade (.graph child) (List.mem_cons_of_mem _ (List.mem_cons_self ..))
      exact congrArg (true && ·) (h.attachError?_smul hw.toRooted hv.toRooted rfl hp hc)
    | assign o given =>
      have ho := hmade o (List.mem_cons_self ..)
      show (true && ((v.attrSet (v.setOf (σ • o))).check given).isOk) = _
      rw [h.setOf_smul ho, h.check_smul (hw.owned.madeSet_setOf ho)]
    | assignDefaults g scope given =>
      have hg := hmade (.graph g) (List.mem_cons_self ..)
      have hcheck := h.check_smul (s := .defaults g scope) hg given
      exact congrArg (fun r => true && Except.isOk r) hcheck
    | _ => rfl

theorem counted_smul (hw : Built w) (hv : Built v) : v.counted (σ • c) = w.counted c := by
  rw [counted, h.accepts_smul hw hv, Command.series_smul, counted]

/-- It is to write the same stores. -/
theorem targets_smul (hmade : ∀ o ∈ c.mentions, w.made o = true) :
    v.targets (σ • c) = (w.targets c).map fun k => σ • k := by
  cases c with
  | newHtmlNode name attributes => cases attributes <;> rfl
  | removeNode g name force => cases force <;> rfl
  | attach parent child =>
    show v.targets (.attach (σ • parent) (σ • child)) = _
    rw [targets_attach, targets_attach]
    rfl
  | assign o given =>
    have hs : v.setOf (σ • o) = σ • w.setOf o := h.setOf_smul (hmade o (List.mem_cons_self ..))
    show [Cell.entries (v.setOf (σ • o))] = _
    rw [hs]
    rfl
  | _ => rfl

end Sees

/-! ## Writing -/

theorem map_setWrites (s : SetId) (r : AttrSet) :
    (setWrites s r).map (fun x => σ • x) = setWrites (σ • s) r := rfl

theorem map_graphWrites (g : GraphId) (kind : Kind) (name : String) (strict : Bool) :
    (graphWrites g kind name strict).map (fun x => σ • x) =
      graphWrites (σ • g) kind name strict := rfl

theorem map_plainWrites (p : PlainId) (name : String) (attributes : Option SetId) (own : AttrSet) :
    (plainWrites p name attributes own).map (fun x => σ • x) =
      plainWrites (σ • p) name (attributes.map fun s => σ • s) own := by
  cases attributes <;> rfl

theorem map_htmlWrites (p : HtmlId) (name : String) (attributes : Option SetId) (own : AttrSet) :
    (htmlWrites p name attributes own).map (fun x => σ • x) =
      htmlWrites (σ • p) name (attributes.map fun s => σ • s) own := by
  cases attributes <;> rfl

theorem map_edgeWrites (e : EdgeId) (g : GraphId) (source target : NodeId) (own : AttrSet) :
    (edgeWrites e g source target own).map (fun x => σ • x) =
      edgeWrites (σ • e) (σ • g) (σ • source) (σ • target) own := rfl

theorem map_detachWrites {parent child : GraphId} (hn : Matches σ (.head child) w v)
    (hc : Matches σ (.clusters parent) w v) :
    (w.detachWrites parent child).map (fun x => σ • x) =
      v.detachWrites (σ • parent) (σ • child) := by
  unfold detachWrites
  rw [hn.name_eq, hc.clusters_eq, OrdMap.get?_map]
  cases (w.graph parent).clusters.get? (w.graph child).name with
  | none => rfl
  | some old =>
    by_cases ho : old = child
    · simp [ho]
    · simp [ho]
      rfl

theorem smul_storeWrite {s : SetId} (hs : Matches σ (.entries s) w v) (given : Attrs) :
    σ • w.storeWrite s given = v.storeWrite (σ • s) given := by
  rw [storeWrite, storeWrite, hs.html_eq, hs.entries_eq]
  rfl

namespace Agrees

variable (h : Agrees σ c w v)

include h

theorem matches_overwritten (ha : w.accepts c = true) (hk : k ∈ w.overwrites c)
    (hs : k.isStore = true) : Matches σ k w v :=
  h.stores k (mem_stores_iff.2 ⟨ha, hk, hs⟩)

theorem smul_next (ha : w.accepts c = true) {s : Series} (hs : c.series = some s) :
    σ s (w.count s) = v.count s :=
  h.next s (by rw [counted, if_pos ha, hs])

/-- What an accepted command writes. -/
theorem writes_smul (hw : Owned w) (hc : c.Steady) (ha : w.accepts c = true) :
    v.writes (σ • c) = (w.writes c).map fun x => σ • x := by
  have hmade : ∀ o ∈ c.mentions, w.made o = true := fun o => made_of_accepts ha
  cases c with
  | newGraph kind name strict =>
    have hnew : σ • (⟨w.graphsMade⟩ : GraphId) = ⟨v.graphsMade⟩ :=
      congrArg GraphId.mk (h.smul_next ha rfl)
    rw [writes, map_graphWrites, hnew]
    rfl
  | newSet context html strict entries =>
    have hnew : σ • SetId.loose w.setsMade = .loose v.setsMade :=
      congrArg SetId.loose (h.smul_next ha rfl)
    rw [writes, List.map_flatMap]
    simp only [map_setWrites, hnew]
    rfl
  | newNode name attributes =>
    have hnew : σ • (⟨.loose w.plainMade⟩ : PlainId) = ⟨.loose v.plainMade⟩ :=
      congrArg (fun i => PlainId.mk (.loose i)) (h.smul_next ha rfl)
    rw [writes, map_plainWrites, hnew]
    rfl
  | newHtmlNode name attributes =>
    have hnew : σ • (⟨.loose w.htmlMade⟩ : HtmlId) = ⟨.loose v.htmlMade⟩ :=
      congrArg (fun i => HtmlId.mk (.loose i)) (h.smul_next ha rfl)
    rw [writes, List.map_append, map_htmlWrites, hnew]
    cases attributes with
    | none => rfl
    | some s =>
      have hs : Matches σ (.entries s) w v :=
        h.matches_overwritten ha (List.mem_singleton.2 rfl) rfl
      refine congrArg (_ ++ ·) (congrArg (fun m => [(⟨.entries (σ • s), (true, m)⟩ : Write)]) ?_)
      exact hs.entries_eq
  | newEdge g source target =>
    have hnew : σ • (⟨.loose w.edgesMade⟩ : EdgeId) = ⟨.loose v.edgesMade⟩ :=
      congrArg (fun i => EdgeId.mk (.loose i)) (h.smul_next ha rfl)
    rw [writes, map_edgeWrites, hnew]
    rfl
  | addNode g name given =>
    have hg : w.madeGraph g = true := hmade (.graph g) (List.mem_cons_self ..)
    have hlist : Matches σ (.plainNodes g) w v :=
      h.matches_overwritten ha (List.mem_singleton.2 rfl) rfl
    show v.placePlainWrites (σ • g) name ((v.blankNodeSet (σ • g) false).store given) = _
    rw [placePlainWrites, h.blankNodeSet_smul hg, hlist.nodes_eq, hlist.plainMade_eq, writes,
      placePlainWrites, List.map_cons, map_plainWrites]
    refine congrArg (· :: _) (congrArg (fun m => (⟨.plainNodes (σ • g), (m, _)⟩ : Write)) ?_)
    exact ((w.graph g).nodes.map_insert (fun p => σ • p) name ⟨.graph g _⟩).symm
  | addHtmlNode g name given =>
    have hg : w.madeGraph g = true := hmade (.graph g) (List.mem_cons_self ..)
    have hlist : Matches σ (.htmlNodes g) w v :=
      h.matches_overwritten ha (List.mem_singleton.2 rfl) rfl
    show v.placeHtmlWrites (σ • g) name ((v.blankNodeSet (σ • g) true).store given) = _
    rw [placeHtmlWrites, h.blankNodeSet_smul hg, hlist.htmlNodes_eq, hlist.htmlMade_eq, writes,
      placeHtmlWrites, List.map_cons, map_htmlWrites]
    refine congrArg (· :: _) (congrArg (fun m => (⟨.htmlNodes (σ • g), (m, _)⟩ : Write)) ?_)
    exact ((w.graph g).htmlNodes.map_insert (fun p => σ • p) name ⟨.graph g _⟩).symm
  | removeNode g name force =>
    have hplain : Matches σ (.plainNodes g) w v :=
      h.matches_overwritten ha (by simp [overwrites]) rfl
    have hhtml : Matches σ (.htmlNodes g) w v :=
      h.matches_overwritten ha (by simp [overwrites]) rfl
    show v.writes (.removeNode (σ • g) name force) = _
    rw [writes, hplain.nodes_eq, hplain.plainMade_eq, hhtml.htmlNodes_eq, hhtml.htmlMade_eq,
      ← OrdMap.map_erase, ← OrdMap.map_erase, writes, List.map_append]
    refine congrArg₂ (· ++ ·) rfl ?_
    cases force with
    | false => rfl
    | true =>
      have hedges : Matches σ (.edges g) w v :=
        h.matches_overwritten ha (by simp [overwrites]) rfl
      have hfilter : ((v.graph (σ • g)).edges.filter fun e => !v.touches name e) =
          ((w.graph g).edges.filter fun e => !w.touches name e).map fun e => σ • e := by
        rw [hedges.edges_eq, List.filter_map]
        refine congrArg _ (List.filter_congr fun e he => ?_)
        rw [Function.comp_apply, h.touches_smul hw (hw.edge_of_mem he).2]
      rw [if_pos rfl, if_pos rfl, hfilter, hedges.edgesMade_eq]
      rfl
  | addEdge g source target given =>
    obtain ⟨s, t, rfl, rfl⟩ := endsGiven_addEdge hc.endsGiven
    have hg : w.madeGraph g = true := hmade (.graph g) (List.mem_cons_self ..)
    have hlist : Matches σ (.edges g) w v :=
      h.matches_overwritten ha (List.mem_singleton.2 rfl) rfl
    show v.placeEdgeWrites (σ • g) (σ • s) (σ • t) ((v.blankEdgeSet (σ • g)).store given) =
      (w.placeEdgeWrites g s t ((w.blankEdgeSet g).store given)).map fun x => σ • x
    rw [placeEdgeWrites, h.blankEdgeSet_smul hg, hlist.edges_eq, hlist.edgesMade_eq,
      placeEdgeWrites, List.map_cons, map_edgeWrites]
    refine congrArg (· :: _) (congrArg (fun m => (⟨.edges (σ • g), (m, _)⟩ : Write)) ?_)
    rw [List.map_append]
    rfl
  | attach parent child =>
    have hm : w.madeGraph child = true :=
      hmade (.graph child) (List.mem_cons_of_mem _ (List.mem_cons_self ..))
    have hlist : Matches σ (.clusters parent) w v :=
      h.matches_overwritten ha (by simp [overwrites]) rfl
    show v.writes (.attach (σ • parent) (σ • child)) = _
    rw [writes, writes, List.map_append, map_detachWrites (h.head hm) hlist, hlist.clusters_eq,
      (h.head hm).name_eq, ← OrdMap.map_insert (fun c : GraphId => σ • c)]
    rfl
  | assign o given =>
    have ho : w.made o = true := hmade o (List.mem_cons_self ..)
    have hs : Matches σ (.entries (w.setOf o)) w v :=
      h.matches_overwritten ha (List.mem_singleton.2 rfl) rfl
    show [v.storeWrite (v.setOf (σ • o)) given] = [σ • w.storeWrite (w.setOf o) given]
    rw [smul_storeWrite hs, h.setOf_smul ho]
  | assignDefaults g scope given =>
    have hs : Matches σ (.entries (.defaults g scope)) w v :=
      h.matches_overwritten ha (List.mem_singleton.2 rfl) rfl
    exact congrArg (fun x => [x]) (smul_storeWrite hs given).symm
  | addRow p sources =>
    have ht : Matches σ (.table p) w v := h.matches_overwritten ha (List.mem_singleton.2 rfl) rfl
    show v.writes (.addRow (σ • p) sources) = _
    rw [writes, ht.table_eq]
    rfl
  | setTable p attributes =>
    have ht : Matches σ (.table p) w v := h.matches_overwritten ha (List.mem_singleton.2 rfl) rfl
    show v.writes (.setTable (σ • p) attributes) = _
    rw [writes, ht.table_eq, writes, List.map_map]
    rfl
  | setPort e side name compass =>
    show v.writes (.setPort (σ • e) side name compass) = _
    rw [writes, writes, List.map_map]
    rfl
  | renameGraph | renameNode | setGraphStrict | setStrict => cases hc
  | _ => rfl

/-- **A command that sees the same writes the same.** -/
theorem changes_smul (hw : Built w) (hv : Built v) (hc : c.Steady) :
    v.changes (σ • c) = (w.changes c).map fun x => σ • x := by
  unfold changes
  rw [h.accepts_smul hw hv]
  by_cases ha : w.accepts c = true
  · rw [if_pos ha, if_pos ha, h.writes_smul hw.owned hc ha]
  · rw [if_neg ha, if_neg ha]
    rfl

/-- It makes the same. -/
theorem creates_smul (hw : Built w) (hv : Built v) (hc : c.EndsGiven) :
    v.creates (σ • c) = (w.creates c).map fun o => σ • o := by
  by_cases ha : w.accepts c = true
  · have ha' : v.accepts (σ • c) = true := (h.accepts_smul hw hv).trans ha
    have hwhole : ∀ s, c.series = some s → σ s (w.count s) = v.count s := fun s =>
      h.smul_next ha
    unfold creates siteOf
    rw [if_pos ha, if_pos ha']
    cases c with
    | newGraph => exact congrArg (fun i => some (Object.graph ⟨i⟩)) (hwhole _ rfl).symm
    | newSet => exact congrArg (fun i => some (Object.set (.loose i))) (hwhole _ rfl).symm
    | newNode =>
      exact congrArg (fun i => some (Object.node (.plain ⟨.loose i⟩))) (hwhole _ rfl).symm
    | newHtmlNode =>
      exact congrArg (fun i => some (Object.node (.html ⟨.loose i⟩))) (hwhole _ rfl).symm
    | newEdge => exact congrArg (fun i => some (Object.edge ⟨.loose i⟩)) (hwhole _ rfl).symm
    | addNode g =>
      have hlist : Matches σ (.plainNodes g) w v :=
        h.matches_overwritten ha (List.mem_singleton.2 rfl) rfl
      exact congrArg (fun i => some (Object.node (.plain ⟨.graph (σ • g) i⟩))) hlist.plainMade_eq
    | addHtmlNode g =>
      have hlist : Matches σ (.htmlNodes g) w v :=
        h.matches_overwritten ha (List.mem_singleton.2 rfl) rfl
      exact congrArg (fun i => some (Object.node (.html ⟨.graph (σ • g) i⟩))) hlist.htmlMade_eq
    | addEdge g =>
      have hlist : Matches σ (.edges g) w v :=
        h.matches_overwritten ha (List.mem_singleton.2 rfl) rfl
      exact congrArg (fun i => some (Object.edge ⟨.graph (σ • g) i⟩)) hlist.edgesMade_eq
    | _ => rfl
  · have ha' : ¬ v.accepts (σ • c) = true := by rwa [h.accepts_smul hw hv]
    unfold creates siteOf
    rw [if_neg ha, if_neg ha']
    rfl

theorem event_smul (hw : Built w) (hv : Built v) (hc : w.Ready c) :
    v.event (σ • c) = σ • w.event c := by
  rw [event, h.targets_smul hc.2, h.creates_smul hw hv hc.1.endsGiven]
  rfl

end Agrees

end DotBuilder.Workspace
