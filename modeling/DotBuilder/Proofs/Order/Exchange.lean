import DotBuilder.Proofs.Order.Alike

/-!
# Steps that commute

Two steady commands commute if they write different stores, if at most one of them attaches a graph,
and if neither refers to what the other makes.  The workspaces after both orders are alike: only
where both commands make a thing of one series do the two things have each other's number.

* `Apart` : two commands that can be accepted have nothing to do with each other;
* `exchange` : the numbers of what two commands make, exchanged where they are of one series;
* `Apart.agrees` : a command does the same before and after such a command;
* `Independent`, `Independent.alike` : the same for all commands, also for those that are refused in
  both orders.
-/

namespace DotBuilder.Workspace

variable {σ : Relabel} {w : Workspace} {c d : Command} {k : Cell} {o : Object}

/-! ## Identifiers that stay -/

theorem smul_eq_of_made (hσ : ∀ s i, i < w.count s → σ s i = i) (ho : w.made o = true) :
    σ • o = o := by
  have graph : ∀ g, w.madeGraph g = true → σ • g = g := fun g hg =>
    congrArg GraphId.mk (hσ .graphs g.serial (of_decide_eq_true hg))
  have node : ∀ n, w.madeNode n = true → σ • n = n := by
    intro n hn
    rcases n with ⟨⟨g, i⟩ | i⟩ | ⟨⟨g, i⟩ | i⟩
    · have hg := graph g (Bool.and_eq_true_iff.1 hn).1
      exact congrArg (fun g => NodeId.plain ⟨.graph g i⟩) hg
    · exact congrArg (fun i => NodeId.plain ⟨.loose i⟩) (hσ .plain i (of_decide_eq_true hn))
    · have hg := graph g (Bool.and_eq_true_iff.1 hn).1
      exact congrArg (fun g => NodeId.html ⟨.graph g i⟩) hg
    · exact congrArg (fun i => NodeId.html ⟨.loose i⟩) (hσ .html i (of_decide_eq_true hn))
  have edge : ∀ e, w.madeEdge e = true → σ • e = e := by
    intro e he
    rcases e with ⟨⟨g, i⟩ | i⟩
    · have hg := graph g (Bool.and_eq_true_iff.1 he).1
      exact congrArg (fun g => EdgeId.mk (.graph g i)) hg
    · exact congrArg (fun i => EdgeId.mk (.loose i)) (hσ .edges i (of_decide_eq_true he))
  rcases o with g | n | e | ⟨g, scope⟩ | n | e | i
  · exact congrArg Object.graph (graph g ho)
  · exact congrArg Object.node (node n ho)
  · exact congrArg Object.edge (edge e ho)
  · exact congrArg (fun g => Object.set (.defaults g scope)) (graph g ho)
  · exact congrArg (fun n => Object.set (.node n)) (node n ho)
  · exact congrArg (fun e => Object.set (.edge e)) (edge e ho)
  · exact congrArg (fun i => Object.set (.loose i)) (hσ .sets i (of_decide_eq_true ho))

theorem smul_set_eq_self {s : SetId} (h : σ • s.maker = s.maker) : σ • s = s := by
  cases s with
  | defaults g scope => exact congrArg (SetId.defaults · scope) (Object.graph.inj h)
  | node n => exact congrArg SetId.node (Object.node.inj h)
  | edge e => exact congrArg SetId.edge (Object.edge.inj h)
  | loose i => exact Object.set.inj h

theorem smul_cell_eq_self (h : σ • k.owner = k.owner) : σ • k = k := by
  cases k with
  | head g => exact congrArg Cell.head (Object.graph.inj h)
  | parent g => exact congrArg Cell.parent (Object.graph.inj h)
  | clusters g => exact congrArg Cell.clusters (Object.graph.inj h)
  | plainNodes g => exact congrArg Cell.plainNodes (Object.graph.inj h)
  | htmlNodes g => exact congrArg Cell.htmlNodes (Object.graph.inj h)
  | edges g => exact congrArg Cell.edges (Object.graph.inj h)
  | node n => exact congrArg Cell.node (Object.node.inj h)
  | table n => exact congrArg Cell.table (NodeId.html.inj (Object.node.inj h))
  | ends e => exact congrArg Cell.ends (Object.edge.inj h)
  | port e side => exact congrArg (Cell.port · side) (Object.edge.inj h)
  | rules s => exact congrArg Cell.rules (smul_set_eq_self h)
  | entries s => exact congrArg Cell.entries (smul_set_eq_self h)

/-- What a cell refers to was made. -/
theorem Built.made_of_refers (hw : Built w) (hk : w.made k.owner = true)
    (ho : o ∈ k.refers (w.content k)) : w.made o = true := by
  cases k with
  | parent g =>
    obtain ⟨p, hp, rfl⟩ := List.mem_map.1 ho
    exact hw.made_parent (Option.mem_toList.1 hp)
  | clusters g =>
    obtain ⟨c, hc, rfl⟩ := List.mem_map.1 ho
    exact hw.made_listed hc
  | plainNodes g =>
    obtain ⟨p, hp, rfl⟩ := List.mem_map.1 ho
    exact (hw.owned.plain_of_mem hp).2
  | htmlNodes g =>
    obtain ⟨p, hp, rfl⟩ := List.mem_map.1 ho
    exact (hw.owned.html_of_mem hp).2
  | edges g =>
    obtain ⟨e, he, rfl⟩ := List.mem_map.1 ho
    exact (hw.owned.edge_of_mem he).2
  | node n =>
    obtain rfl := List.mem_singleton.1 ho
    exact hw.owned.madeSet_attributes hk
  | ends e =>
    obtain ⟨hg, hs, ht, -⟩ := hw.owned (.ends e) hk
    simp only [Cell.refers, List.mem_cons, List.not_mem_nil, or_false] at ho
    rcases ho with rfl | rfl | rfl
    · exact hg
    · exact hs
    · exact ht
  | _ => cases ho

/-- Where nothing that was made has another identifier, cells match themselves. -/
theorem Built.matches_self (hw : Built w) (hσ : ∀ o, w.made o = true → σ • o = o)
    (hk : w.made k.owner = true) : Matches σ k w w := by
  have hcell : σ • k = k := smul_cell_eq_self (hσ _ hk)
  have hcontent : HEq (k.carry σ (w.content k)) (w.content k) :=
    k.carry_eq_self _ fun o ho => hσ o (hw.made_of_refers hk ho)
  rw [matches_iff, hcell]
  exact (Write.ext_heq hcell hcontent).symm

/-! ## Apart commands -/

/-- Two commands that are ready write different stores, and at most one of them attaches a graph. -/
structure Apart (w : Workspace) (c d : Command) : Prop where
  left : w.Ready c
  right : w.Ready d
  stores (k : Cell) (hc : k ∈ w.stores c) (hd : k ∈ w.stores d) : False
  attaches : ¬ (c.attaches = true ∧ d.attaches = true)

/-- The numbers of the two things that two commands make, exchanged where they are of one series. -/
def exchange (w : Workspace) (c d : Command) : Relabel := fun s =>
  if w.counted c = some s ∧ w.counted d = some s then
    Equiv.swap (w.count s) (w.count s + 1)
  else 1

theorem exchange_comm (w : Workspace) (c d : Command) : w.exchange c d = w.exchange d c := by
  funext s
  simp only [exchange, and_comm]

theorem inv_exchange (w : Workspace) (c d : Command) : (w.exchange c d)⁻¹ = w.exchange c d := by
  funext s
  show (w.exchange c d s)⁻¹ = w.exchange c d s
  unfold exchange
  split
  · exact Equiv.swap_inv ..
  · exact inv_one

theorem exchange_smul_smul {α : Type} [MulAction Relabel α] (w : Workspace) (c d : Command)
    (x : α) : w.exchange c d • w.exchange c d • x = x := by
  calc w.exchange c d • w.exchange c d • x = (w.exchange c d)⁻¹ • w.exchange c d • x := by
        rw [inv_exchange]
    _ = x := inv_smul_smul _ x

theorem exchange_eq_one (h : w.counted c = none) : w.exchange c d = 1 := by
  funext s
  exact if_neg fun hs => by rw [h] at hs; cases hs.1

/-- What was made keeps its identifier. -/
theorem exchange_smul_of_made (ho : w.made o = true) : w.exchange c d • o = o := by
  refine smul_eq_of_made (fun s i hi => ?_) ho
  unfold exchange
  split
  · exact Equiv.swap_apply_of_ne_of_ne (by omega) (by omega)
  · rfl

/-- All that a steady command overwrites but for stores is the parents of attached graphs. -/
theorem attaches_of_mem_overwrites (hd : d.Steady) (hk : k ∈ w.overwrites d)
    (hs : k.isStore = false) : d.attaches = true ∧ ∃ g, k = .parent g := by
  cases d with
  | attach parent child =>
    refine ⟨rfl, ?_⟩
    rcases mem_overwrites_attach hk with rfl | rfl | ⟨old, -, rfl⟩
    · cases hs
    · exact ⟨child, rfl⟩
    · exact ⟨old, rfl⟩
  | newHtmlNode name attributes =>
    obtain ⟨s, -, rfl⟩ := List.mem_map.1 hk
    cases hs
  | removeNode g name force =>
    simp only [overwrites, List.mem_append, List.mem_cons, List.not_mem_nil, or_false] at hk
    rcases hk with (rfl | rfl) | hk
    · cases hs
    · cases hs
    · cases force with
      | false => cases hk
      | true =>
        obtain rfl := List.mem_singleton.1 hk
        cases hs
  | addNode | addHtmlNode | addEdge | assign | assignDefaults | addRow | setTable | setPort =>
    obtain rfl := List.mem_singleton.1 hk
    cases hs
  | renameGraph | renameNode | setGraphStrict | setStrict => cases hd
  | _ => cases hk

/-- A command that is accepted overwrites stores that it writes, and parents if it attaches. -/
theorem stores_or_attaches (hd : d.Steady) {x : Write} (hx : x ∈ w.changes d)
    (hold : x.cell ∈ w.overwrites d) :
    x.cell ∈ w.stores d ∨ d.attaches = true ∧ ∃ g, x.cell = .parent g := by
  cases hs : x.cell.isStore with
  | true => exact .inl (mem_stores_iff.2 ⟨(mem_changes_iff.1 hx).1, hold, hs⟩)
  | false => exact .inr (attaches_of_mem_overwrites hd hold hs)

/-- A cell of what was made before is only changed by commands that overwrite it. -/
theorem content_step_of_made (hd : d.Steady) (hk : w.made k.owner = true) (hs : k ∉ w.stores d)
    (hp : ¬ d.attaches = true ∨ ∀ g, k ≠ .parent g) :
    (w.step d).1.content k = w.content k := by
  refine content_step_of_notMem ?_
  rintro x hx rfl
  rcases creates_or_overwrites hd.endsGiven hx with hnew | hold
  · rw [made_of_creates_eq_false hnew] at hk
    cases hk
  · rcases stores_or_attaches hd hx hold with hstore | ⟨hd', g, hg⟩
    · exact hs hstore
    · exact hp.elim (fun h => h hd') fun h => h g hg

namespace Apart

variable (h : Apart w c d)

include h

theorem symm : Apart w d c :=
  ⟨h.right, h.left, fun k hd hc => h.stores k hc hd, fun ⟨hd, hc⟩ => h.attaches ⟨hc, hd⟩⟩

/-- A cell of what was made before matches itself after a command that does not write it. -/
theorem matches_step (hw : Built w) (hk : w.made k.owner = true) (hs : k ∉ w.stores d)
    (hp : ¬ d.attaches = true ∨ ∀ g, k ≠ .parent g) :
    Matches (w.exchange c d) k w (w.step d).1 := by
  have hself : Matches (w.exchange c d) k w w :=
    hw.matches_self (fun o ho => exchange_smul_of_made ho) hk
  refine hself.of_contents_eq rfl ?_
  rw [smul_cell_eq_self (exchange_smul_of_made hk)]
  exact content_step_of_made h.right.1 hk hs hp

/-- **A command does the same before and after one apart from it.** -/
theorem agrees (hw : Built w) : Agrees (w.exchange c d) c w (w.step d).1 where
  made o ho := by
    have hmade := h.left.2 o ho
    rw [exchange_smul_of_made hmade, hmade]
    exact made_step h.right.1.endsGiven hmade
  fixed k hk hs hp := by
    refine h.matches_step hw hk (fun hd => ?_) ?_
    · rw [(mem_stores_iff.1 hd).2.2] at hs
      cases hs
    · exact hp.imp_left fun hc hd => h.attaches ⟨hc, hd⟩
  stores k hk := by
    refine h.matches_step hw (made_of_mem_stores hw hk) (h.stores k hk) (.inr ?_)
    rintro g rfl
    cases (mem_stores_iff.1 hk).2.2
  next s hs := by
    rw [count_step]
    by_cases hd : w.counted d = some s
    · rw [if_pos hd, exchange, if_pos ⟨hs, hd⟩, Equiv.swap_apply_left]
    · rw [if_neg hd, exchange, if_neg fun hboth => hd hboth.2]
      rfl

theorem smul_left : w.exchange c d • c = c :=
  Command.smul_eq_self fun o ho => exchange_smul_of_made (h.left.2 o ho)

theorem changes_step (hw : Built w) :
    (w.step d).1.changes c = (w.changes c).map fun x => w.exchange c d • x := by
  have hchanges := (h.agrees hw).changes_smul hw (hw.step d) h.left.1
  rwa [h.smul_left] at hchanges

theorem creates_step (hw : Built w) :
    (w.step d).1.creates c = (w.creates c).map fun o => w.exchange c d • o := by
  have hcreates := (h.agrees hw).creates_smul hw (hw.step d) h.left.1.endsGiven
  rwa [h.smul_left] at hcreates

theorem counted_step (hw : Built w) : (w.step d).1.counted c = w.counted c := by
  have hcounted := (h.agrees hw).counted_smul hw (hw.step d)
  rwa [h.smul_left] at hcounted

theorem event_step (hw : Built w) : (w.step d).1.event c = w.exchange c d • w.event c := by
  have hevent := (h.agrees hw).event_smul hw (hw.step d) h.left
  rwa [h.smul_left] at hevent

/-! ## Both orders -/

/-- What a command writes belongs to what was made afterwards. -/
theorem made_of_mem_changes (hw : Built w) {x : Write} (hx : x ∈ w.changes c) :
    (w.step c).1.made x.cell.owner = true := by
  refine (made_step_iff h.left.1.endsGiven _).2 ?_
  rcases creates_or_overwrites h.left.1.endsGiven hx with hnew | hold
  · exact .inr (by rw [maker_owner, hnew])
  · exact .inl (made_of_mem_overwrites hw h.left.2 hold)

/-- The two commands write different cells. -/
theorem cell_ne (hw : Built w) {x y : Write} (hx : x ∈ w.changes c)
    (hy : y ∈ (w.step c).1.changes d) : x.cell ≠ y.cell := by
  intro hxy
  rw [h.symm.changes_step hw] at hy
  obtain ⟨z, hz, rfl⟩ := List.mem_map.1 hy
  rcases creates_or_overwrites h.right.1.endsGiven hz with hnew | hold
  · -- what `d` makes after `c` is not made by then, unlike what `c` writes
    have hcreates := h.symm.creates_step hw
    rw [hnew, Option.map_some, ← Cell.owner_smul, ← Write.cell_smul, ← hxy] at hcreates
    have hmade := h.made_of_mem_changes hw hx
    rw [made_of_creates_eq_false hcreates] at hmade
    cases hmade
  · have hmade := made_of_mem_overwrites hw h.right.2 hold
    rw [Write.cell_smul, smul_cell_eq_self (exchange_smul_of_made hmade)] at hxy
    rcases creates_or_overwrites h.left.1.endsGiven hx with hnew | hold'
    · rw [hxy] at hnew
      rw [made_of_creates_eq_false hnew] at hmade
      cases hmade
    · have hc := stores_or_attaches h.left.1 hx hold'
      have hd := stores_or_attaches h.right.1 hz hold
      rw [hxy] at hc
      rcases hc with hc | ⟨hc, g, hg⟩ <;> rcases hd with hd | ⟨hd, g', hg'⟩
      · exact h.stores _ hc hd
      · rw [hg'] at hc
        cases (mem_stores_iff.1 hc).2.2
      · rw [hg] at hd
        cases (mem_stores_iff.1 hd).2.2
      · exact h.attaches ⟨hc, hd⟩

/-- A cell that one of the commands writes matches after both orders. -/
theorem matches_of_mem_changes (hw : Built w) {x : Write} (hx : x ∈ w.changes c) :
    Matches (w.exchange c d) x.cell ((w.step c).1.step d).1 ((w.step d).1.step c).1 := by
  have hwrites : Matches (w.exchange c d) x.cell (w.writeAll (w.changes c))
      ((w.step d).1.writeAll ((w.changes c).map fun x => w.exchange c d • x)) :=
    .writeAll fun hne => absurd rfl (hne x hx)
  have hafter : ((w.step c).1.step d).1.content x.cell = (w.step c).1.content x.cell :=
    content_step_of_notMem fun y hy hyx => h.cell_ne hw hx hy hyx.symm
  refine hwrites.of_contents_eq ?_ ?_
  · rw [hafter, step_eq, content_advance]
  · rw [step_eq, content_advance, h.changes_step hw]

/-- **Apart commands can be tried in either order.** -/
theorem alike (hw : Built w) :
    Alike (w.exchange c d) ((w.step c).1.step d).1 ((w.step d).1.step c).1 := by
  refine ⟨fun s => ?_, fun s i hi => ?_, fun k hk => ?_⟩
  · simp only [count_step, h.counted_step hw, h.symm.counted_step hw]
    split <;> split <;> rfl
  · unfold exchange
    split
    case isTrue hboth =>
      simp only [count_step, h.symm.counted_step hw, hboth, if_true] at hi
      exact Equiv.swap_apply_of_ne_of_ne (by omega) (by omega)
    case isFalse => rfl
  · by_cases hc : ∃ x ∈ w.changes c, x.cell = k
    · obtain ⟨x, hx, rfl⟩ := hc
      exact h.matches_of_mem_changes hw hx
    by_cases hd : ∃ y ∈ w.changes d, w.exchange c d • y.cell = k
    · obtain ⟨y, hy, rfl⟩ := hd
      have hmatch := (h.symm.matches_of_mem_changes hw hy).symm
      rwa [inv_exchange, exchange_comm w d c] at hmatch
    have hc₁ : ∀ x ∈ w.changes c, x.cell ≠ k := fun x hx hxk => hc ⟨x, hx, hxk⟩
    have hd₂ : ∀ y ∈ (w.step c).1.changes d, y.cell ≠ k := by
      rw [h.symm.changes_step hw, exchange_comm]
      intro z hz hzk
      obtain ⟨y, hy, rfl⟩ := List.mem_map.1 hz
      exact hd ⟨y, hy, hzk⟩
    -- neither command writes the cell, which therefore is part of what was made before
    have hmade : w.made k.owner = true :=
      made_of_forall_ne h.left.1.endsGiven (made_of_forall_ne h.right.1.endsGiven hk hd₂) hc₁
    have hsame : w.exchange c d • k = k := smul_cell_eq_self (exchange_smul_of_made hmade)
    have hd₁ : ∀ y ∈ w.changes d, y.cell ≠ k := fun y hy hyk => hd ⟨y, hy, by rw [hyk, hsame]⟩
    have hc₂ : ∀ x ∈ (w.step d).1.changes c, x.cell ≠ k := by
      rw [h.changes_step hw]
      intro z hz hzk
      obtain ⟨x, hx, rfl⟩ := List.mem_map.1 hz
      exact hc ⟨x, hx, smul_left_cancel (w.exchange c d) (hzk.trans hsame.symm)⟩
    have hself : Matches (w.exchange c d) k w w :=
      hw.matches_self (fun o ho => exchange_smul_of_made ho) hmade
    refine hself.of_contents_eq ?_ ?_
    · rw [content_step_of_notMem hd₂, content_step_of_notMem hc₁]
    · rw [hsame, content_step_of_notMem hc₂, content_step_of_notMem hd₁]

end Apart

/-! ## Commands that do not use what the other makes -/

/-- Two steady commands write different stores, at most one of them attaches a graph, and neither
refers to what the other makes. -/
structure Independent (w : Workspace) (c d : Command) : Prop where
  left : c.Steady
  right : d.Steady
  stores (k : Cell) (hc : k ∈ w.stores c) (hd : k ∈ w.stores d) : False
  attaches : ¬ (c.attaches = true ∧ d.attaches = true)
  left_unused (o : Object) (ho : o ∈ d.mentions) : w.creates c ≠ some o.maker
  right_unused (o : Object) (ho : o ∈ c.mentions) : w.creates d ≠ some o.maker

namespace Independent

variable (h : Independent w c d)

include h

theorem symm : Independent w d c :=
  ⟨h.right, h.left, fun k hd hc => h.stores k hc hd, fun ⟨hd, hc⟩ => h.attaches ⟨hc, hd⟩,
    h.right_unused, h.left_unused⟩

/-- A command that refers to what was not made is refused before and after the other one. -/
theorem not_accepts (hc : ¬ w.Ready c) :
    ¬ w.accepts c = true ∧ ¬ (w.step d).1.accepts c = true := by
  have hex : ∃ o ∈ c.mentions, ¬ w.made o = true := by
    by_contra hall
    exact hc ⟨h.left, fun o ho => by_contra fun hmade => hall ⟨o, ho, hmade⟩⟩
  obtain ⟨o, ho, hmade⟩ := hex
  refine ⟨fun ha => hmade (made_of_accepts ha ho), fun ha => ?_⟩
  rcases (made_step_iff h.right.endsGiven o).1 (made_of_accepts ha ho) with hold | hnew
  · exact hmade hold
  · exact h.right_unused o ho hnew

theorem exchange_eq_one (hc : ¬ w.Ready c) : w.exchange c d = 1 :=
  Workspace.exchange_eq_one (if_neg (h.not_accepts hc).1)

theorem apart (hc : w.Ready c) (hd : w.Ready d) : Apart w c d := ⟨hc, hd, h.stores, h.attaches⟩

/-- **Independent commands can be tried in either order.** -/
theorem alike (hw : Built w) :
    Alike (w.exchange c d) ((w.step c).1.step d).1 ((w.step d).1.step c).1 := by
  by_cases hc : w.Ready c
  · by_cases hd : w.Ready d
    · exact (h.apart hc hd).alike hw
    · obtain ⟨hd₁, hd₂⟩ := h.symm.not_accepts hd
      rw [exchange_comm, h.symm.exchange_eq_one hd, step_of_not_accepts hd₁,
        step_of_not_accepts hd₂]
      exact .refl _
  · obtain ⟨hc₁, hc₂⟩ := h.not_accepts hc
    rw [h.exchange_eq_one hc, step_of_not_accepts hc₁, step_of_not_accepts hc₂]
    exact .refl _

/-- What a command makes before and after an independent one. -/
theorem creates_step (hw : Built w) :
    (w.step d).1.creates c = (w.creates c).map fun o => w.exchange c d • o := by
  by_cases hc : w.Ready c
  · by_cases hd : w.Ready d
    · exact (h.apart hc hd).creates_step hw
    · rw [exchange_comm, h.symm.exchange_eq_one hd, step_of_not_accepts (h.symm.not_accepts hd).1]
      simp only [one_smul, Option.map_id']
  · obtain ⟨hc₁, hc₂⟩ := h.not_accepts hc
    rw [creates, creates, siteOf, siteOf, if_neg hc₁, if_neg hc₂]
    rfl

end Independent

end DotBuilder.Workspace
