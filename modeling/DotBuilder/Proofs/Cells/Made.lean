import DotBuilder.Proofs.Cells.Commands

/-!
# Things that commands make

A thing is made at a `Site`, where it is numbered: graphs and what is made on its own are counted as
a whole, and each graph counts its plain nodes, its HTML nodes and its edges.  A command makes one
thing at most, but for an edge between names, which stands for adding the nodes first and then the
edge.

* `step_addEdge_eq_run` : an edge between names comes down to commands that are given the ends;
* `made_step_iff` : of these, each makes the thing that `Workspace.creates` says and no other;
* `made_stays` : what was made stays made;
* `exists_write_of_creates` : a command that makes a thing writes all its cells;
* `creates_or_overwrites` : of the cells of other things it writes those in `Workspace.overwrites`.
-/

namespace DotBuilder

/-- Whether the ends of a new edge are given as nodes and not by name. -/
def Command.EndsGiven : Command → Prop
  | addEdge _ (.given _) (.given _) _ => True
  | addEdge .. => False
  | _ => True

/-! ## Owners -/

/-- The thing that a set is made with. -/
def SetId.maker : SetId → Object
  | defaults g _ => .graph g
  | node n => .node n
  | edge e => .edge e
  | loose serial => .set (.loose serial)

/-- The thing that a thing is made with, which is another one only for some sets. -/
def Object.maker : Object → Object
  | set s => s.maker
  | o => o

/-- The thing that a cell is a part of. -/
def Cell.owner : Cell → Object
  | head g | parent g | clusters g | plainNodes g | htmlNodes g | edges g => .graph g
  | node n => .node n
  | table h => .node (.html h)
  | ends e | port e _ => .edge e
  | rules s | entries s => s.maker

/-! ## Sites -/

/-- Where things are numbered. -/
inductive Site where
  /-- In the workspace as a whole. -/
  | whole (s : Series)
  /-- Among the plain nodes of a graph. -/
  | plain (g : GraphId)
  /-- Among the HTML nodes of a graph. -/
  | html (g : GraphId)
  /-- Among the edges of a graph. -/
  | edges (g : GraphId)
  deriving DecidableEq

/-- The thing with a number at a site. -/
def Site.thing : Site → Nat → Object
  | whole .graphs, serial => .graph ⟨serial⟩
  | whole .plain, serial => .node (.plain ⟨.loose serial⟩)
  | whole .html, serial => .node (.html ⟨.loose serial⟩)
  | whole .edges, serial => .edge ⟨.loose serial⟩
  | whole .sets, serial => .set (.loose serial)
  | plain g, serial => .node (.plain ⟨.graph g serial⟩)
  | html g, serial => .node (.html ⟨.graph g serial⟩)
  | edges g, serial => .edge ⟨.graph g serial⟩

/-- Where a command makes a thing, if it is given the ends of edges. -/
def Command.site : Command → Option Site
  | addNode g .. => some (.plain g)
  | addHtmlNode g .. => some (.html g)
  | addEdge g .. => some (.edges g)
  | c => c.series.map .whole

namespace Workspace

variable {w w' : Workspace} {c : Command} {k : Cell} {o : Object}

theorem made_maker (w : Workspace) (o : Object) : w.made o.maker = w.made o := by
  rcases o with g | n | e | ⟨g, scope⟩ | n | e | serial <;> rfl

theorem Site.thing_inj {p q : Site} {i j : Nat} : p.thing i = q.thing j ↔ p = q ∧ i = j := by
  constructor
  · intro h
    rcases p with (_ | _ | _ | _ | _) | _ | _ | _ <;>
      rcases q with (_ | _ | _ | _ | _) | _ | _ | _ <;> simp_all [Site.thing]
  · rintro ⟨rfl, rfl⟩
    rfl

theorem Site.maker_thing (p : Site) (i : Nat) : (p.thing i).maker = p.thing i := by
  rcases p with (_ | _ | _ | _ | _) | _ | _ | _ <;> rfl

theorem maker_owner (k : Cell) : k.owner.maker = k.owner := by
  cases k with
  | rules s | entries s => rcases s with ⟨g, scope⟩ | n | e | i <;> rfl
  | _ => rfl

theorem Site.exists_node_eq (n : NodeId) : ∃ p i, Object.node n = Site.thing p i := by
  rcases n with ⟨⟨g, i⟩ | i⟩ | ⟨⟨g, i⟩ | i⟩
  · exact ⟨.plain g, i, rfl⟩
  · exact ⟨.whole .plain, i, rfl⟩
  · exact ⟨.html g, i, rfl⟩
  · exact ⟨.whole .html, i, rfl⟩

theorem Site.exists_edge_eq (e : EdgeId) : ∃ p i, Object.edge e = Site.thing p i := by
  rcases e with ⟨⟨g, i⟩ | i⟩
  · exact ⟨.edges g, i, rfl⟩
  · exact ⟨.whole .edges, i, rfl⟩

theorem exists_maker_eq_thing (o : Object) : ∃ p i, o.maker = Site.thing p i := by
  rcases o with g | n | e | ⟨g, scope⟩ | n | e | i
  · exact ⟨.whole .graphs, g.serial, rfl⟩
  · exact Site.exists_node_eq n
  · exact Site.exists_edge_eq e
  · exact ⟨.whole .graphs, g.serial, rfl⟩
  · exact Site.exists_node_eq n
  · exact Site.exists_edge_eq e
  · exact ⟨.whole .sets, i, rfl⟩

/-- Whether there is a site. -/
def hasSite (w : Workspace) : Site → Bool
  | .whole _ => true
  | .plain g | .html g | .edges g => w.madeGraph g

/-- The number of things that were made at a site. -/
def tally (w : Workspace) : Site → Nat
  | .whole s => w.count s
  | .plain g => (w.graph g).plainMade
  | .html g => (w.graph g).htmlMade
  | .edges g => (w.graph g).edgesMade

theorem made_thing (w : Workspace) (p : Site) (i : Nat) :
    w.made (p.thing i) = (w.hasSite p && decide (i < w.tally p)) := by
  rcases p with (_ | _ | _ | _ | _) | _ | _ | _ <;> rfl

/-! ## Steps -/

/-- The site at which a command makes a thing, if it is accepted. -/
def siteOf (w : Workspace) (c : Command) : Option Site :=
  if w.accepts c then c.site else none

/-- The thing that a command makes, if it is accepted. -/
def creates (w : Workspace) (c : Command) : Option Object :=
  (w.siteOf c).map fun p => p.thing (w.tally p)

theorem tally_modifyGraph (g : GraphId) {f : Graph → Graph}
    (hp : (f (w.graph g)).plainMade = (w.graph g).plainMade)
    (hh : (f (w.graph g)).htmlMade = (w.graph g).htmlMade)
    (he : (f (w.graph g)).edgesMade = (w.graph g).edgesMade) (p : Site) :
    (w.modifyGraph g f).tally p = w.tally p := by
  rcases p with (_ | _ | _ | _ | _) | h | h | h <;> try rfl
  all_goals by_cases hg : h = g <;> simp [tally, graph_modifyGraph, hg, hp, hh, he]

theorem tally_placePlain (g : GraphId) (name : String) (own : AttrSet) (p : Site) :
    (w.placePlain g name own).1.tally p =
      if p = .plain g then w.tally p + 1 else w.tally p := by
  rcases p with (_ | _ | _ | _ | _) | h | h | h <;> try rfl
  all_goals by_cases hg : h = g <;> simp [tally, graph_placePlain, hg]

theorem tally_placeHtml (g : GraphId) (name : String) (own : AttrSet) (p : Site) :
    (w.placeHtml g name own).1.tally p =
      if p = .html g then w.tally p + 1 else w.tally p := by
  rcases p with (_ | _ | _ | _ | _) | h | h | h <;> try rfl
  all_goals by_cases hg : h = g <;> simp [tally, graph_placeHtml, hg]

theorem tally_placeEdge (g : GraphId) (source target : NodeId) (own : AttrSet) (p : Site) :
    (w.placeEdge g source target own).1.tally p =
      if p = .edges g then w.tally p + 1 else w.tally p := by
  rcases p with (_ | _ | _ | _ | _) | h | h | h <;> try rfl
  all_goals by_cases hg : h = g <;> simp [tally, graph_placeEdge, hg]

theorem tally_newGraph {p : Site} (hp : w.hasSite p = true) (kind : Kind) (name : String)
    (strict : Bool) : (w.newGraph kind name strict).1.tally p =
      if p = .whole .graphs then w.tally p + 1 else w.tally p := by
  rcases p with (_ | _ | _ | _ | _) | h | h | h <;> try rfl
  all_goals simp [tally, graph_newGraph_of_made (show w.madeGraph h = true from hp)]

theorem tally_attached (parent child : GraphId) (p : Site) :
    (w.attached parent child).tally p = w.tally p := by
  rcases p with s | h | h | h
  · show (w.attached parent child).count s = w.count s
    rw [attached_eq, count_writeAll]
  all_goals simp [tally, graph_attached]

theorem site_of_asks (h : c.asks = true) : c.site = none := by
  cases c <;> first | rfl | cases h

theorem endsGiven_or_addEdge (c : Command) :
    c.EndsGiven ∨ ∃ g source target given, c = .addEdge g source target given := by
  cases c with
  | addEdge g source target given => exact .inr ⟨g, source, target, given, rfl⟩
  | _ => exact .inl trivial

theorem endsGiven_addEdge {g : GraphId} {source target : NodeRef} {given : Attrs}
    (h : (Command.addEdge g source target given).EndsGiven) :
    ∃ s t, source = .given s ∧ target = .given t := by
  cases source with
  | named => cases target <;> cases h
  | given s =>
    cases target with
    | named => cases h
    | given t => exact ⟨s, t, rfl, rfl⟩

/-- A command counts one more thing where it makes one, and nowhere else. -/
theorem tally_step (hc : c.EndsGiven) {p : Site} (hp : w.hasSite p = true) :
    (w.step c).1.tally p = if w.siteOf c = some p then w.tally p + 1 else w.tally p := by
  by_cases ha : w.accepts c = true
  · have he : w.Effect c (w.step c).1 := w.step_effect c
    rw [siteOf, if_pos ha]
    generalize (w.step c).1 = w' at he
    cases he with
    | refused hr =>
      cases hq : c.asks with
      | true => rw [site_of_asks hq]; rfl
      | false => exact absurd hr (not_refused_of_accepts hq ha _)
    | asked h => rw [site_of_asks h]; rfl
    | newGraph kind name strict =>
      simp [Command.site, Command.series, tally_newGraph hp, eq_comm]
    | addNode name hg h =>
      simp [Command.site, tally_placePlain, eq_comm]
    | addHtmlNode name hg h =>
      simp [Command.site, tally_placeHtml, eq_comm]
    | addEdge hg hs ht h =>
      obtain ⟨s, t, rfl, rfl⟩ := endsGiven_addEdge hc
      show ((w.placeEdge _ s t _).1.tally p) = _
      simp [Command.site, tally_placeEdge, eq_comm]
    | attach => exact tally_attached _ _ p
    | removeNode | renameGraph | setGraphStrict => exact tally_modifyGraph _ rfl rfl rfl p
    | _ => rcases p with (_ | _ | _ | _ | _) | h | h | h <;> rfl
  · rw [step_of_not_accepts ha, siteOf, if_neg ha]
    rfl

theorem creates_eq_thing_iff {p : Site} {i : Nat} :
    w.creates c = some (p.thing i) ↔ w.siteOf c = some p ∧ i = w.tally p := by
  rw [creates, Option.map_eq_some_iff]
  simp only [Site.thing_inj]
  constructor
  · rintro ⟨q, hq, rfl, rfl⟩
    exact ⟨hq, rfl⟩
  · rintro ⟨hp, rfl⟩
    exact ⟨p, hp, rfl, rfl⟩

theorem lt_tally_step_iff (hc : c.EndsGiven) {p : Site} (hp : w.hasSite p = true) {i : Nat} :
    i < (w.step c).1.tally p ↔ i < w.tally p ∨ w.creates c = some (p.thing i) := by
  rw [tally_step hc hp, creates_eq_thing_iff]
  by_cases hs : w.siteOf c = some p
  · rw [if_pos hs, Nat.lt_succ_iff_lt_or_eq]
    simp only [hs, true_and]
  · rw [if_neg hs]
    simp only [hs, false_and, or_false]

theorem madeGraph_step_iff (hc : c.EndsGiven) (g : GraphId) :
    (w.step c).1.madeGraph g = true ↔ w.madeGraph g = true ∨ w.creates c = some (.graph g) := by
  have h := lt_tally_step_iff hc (show w.hasSite (.whole .graphs) = true from rfl) (i := g.serial)
  simpa [madeGraph, tally, count, Site.thing] using h

theorem siteOf_eq_some_iff {p : Site} :
    w.siteOf c = some p ↔ w.accepts c = true ∧ c.site = some p := by
  unfold siteOf
  by_cases h : w.accepts c = true <;> simp [h]

theorem made_of_accepts (h : w.accepts c = true) (ho : o ∈ c.mentions) : w.made o = true :=
  List.all_eq_true.1 (Bool.and_eq_true_iff.1 h).1 o ho

/-- A graph makes things only after it was made. -/
theorem hasSite_of_siteOf {p : Site} (h : w.siteOf c = some p) : w.hasSite p = true := by
  obtain ⟨ha, hs⟩ := siteOf_eq_some_iff.1 h
  cases c with
  | addNode g | addHtmlNode g | addEdge g =>
    cases hs
    exact made_of_accepts (o := .graph g) ha (List.mem_cons_self ..)
  | newGraph | newSet | newNode | newHtmlNode | newEdge =>
    cases hs
    rfl
  | _ => cases hs

theorem graph_of_creates {g : GraphId} (h : w.creates c = some (.graph g)) :
    ∃ kind name strict, (w.step c).1.graph g = .blank kind name strict := by
  obtain ⟨hs, hg⟩ := creates_eq_thing_iff.1
    (show _ = some (Site.thing (.whole .graphs) g.serial) from h)
  obtain ⟨ha, hc⟩ := siteOf_eq_some_iff.1 hs
  cases c with
  | newGraph kind name strict =>
    have hnew : g = ⟨w.graphsMade⟩ := congrArg GraphId.mk hg
    refine ⟨kind, name, strict, ?_⟩
    rw [step_of_accepts ha, writes, Command.series, ← newGraph_eq, graph_newGraph, if_pos hnew]
  | _ => cases hc

/-- A graph that was made just now has made nothing yet. -/
theorem tally_of_hasSite_step (hc : c.EndsGiven) {p : Site} (hp : w.hasSite p = false)
    (hp' : (w.step c).1.hasSite p = true) : (w.step c).1.tally p = 0 := by
  have new : ∀ g, w.madeGraph g = false → (w.step c).1.madeGraph g = true →
      ∃ kind name strict, (w.step c).1.graph g = .blank kind name strict := by
    intro g hg hg'
    rcases (madeGraph_step_iff hc g).1 hg' with h | h
    · rw [h] at hg
      cases hg
    · exact graph_of_creates h
  cases p with
  | whole s => cases hp
  | plain g | html g | edges g =>
    obtain ⟨kind, name, strict, h⟩ := new g hp hp'
    rw [tally, h]
    rfl

/-- **A command makes the thing that it creates, and no other.** -/
theorem made_step_iff (hc : c.EndsGiven) (o : Object) :
    (w.step c).1.made o = true ↔ w.made o = true ∨ w.creates c = some o.maker := by
  rw [← made_maker (w.step c).1, ← made_maker w]
  obtain ⟨p, i, ho⟩ := exists_maker_eq_thing o
  rw [ho, made_thing, made_thing, Bool.and_eq_true, Bool.and_eq_true, decide_eq_true_eq,
    decide_eq_true_eq]
  cases hp : w.hasSite p with
  | true =>
    have hp' : (w.step c).1.hasSite p = true := by
      cases p with
      | whole s => rfl
      | plain g | html g | edges g => exact (madeGraph_step_iff hc g).2 (.inl hp)
    rw [lt_tally_step_iff hc hp]
    simp only [hp', true_and]
  | false =>
    constructor
    · rintro ⟨hp', hi⟩
      rw [tally_of_hasSite_step hc hp hp'] at hi
      omega
    · rintro (⟨⟨⟩, -⟩ | h)
      have hs := hasSite_of_siteOf (creates_eq_thing_iff.1 h).1
      rw [hp] at hs
      cases hs

theorem exists_graphWrite {g : GraphId} (kind : Kind) (name : String) (strict : Bool)
    (h : k.owner = .graph g) : ∃ x ∈ graphWrites g kind name strict, x.cell = k := by
  cases k with
  | rules s | entries s =>
    rcases s with ⟨g, _ | _ | _⟩ | n | e | i <;> cases h <;> simp [graphWrites, setWrites]
  | _ => cases h <;> simp [graphWrites]

theorem exists_plainWrite {p : PlainId} (name : String) (attributes : Option SetId) (own : AttrSet)
    (h : k.owner = .node (.plain p)) :
    ∃ x ∈ plainWrites p name attributes own, x.cell = k := by
  cases k with
  | rules s | entries s =>
    rcases s with ⟨g, scope⟩ | n | e | i <;> cases h
    simp [plainWrites, setWrites]
  | _ => cases h <;> simp [plainWrites]

theorem exists_htmlWrite {p : HtmlId} (name : String) (attributes : Option SetId) (own : AttrSet)
    (h : k.owner = .node (.html p)) : ∃ x ∈ htmlWrites p name attributes own, x.cell = k := by
  cases k with
  | rules s | entries s =>
    rcases s with ⟨g, scope⟩ | n | e | i <;> cases h
    simp [htmlWrites, setWrites]
  | _ => cases h <;> simp [htmlWrites]

theorem exists_edgeWrite {e : EdgeId} (g : GraphId) (source target : NodeId) (own : AttrSet)
    (h : k.owner = .edge e) : ∃ x ∈ edgeWrites e g source target own, x.cell = k := by
  cases k with
  | rules s | entries s =>
    rcases s with ⟨g, scope⟩ | n | e | i <;> cases h
    simp [edgeWrites, setWrites]
  | port e side => cases side <;> cases h <;> simp [edgeWrites]
  | _ => cases h <;> simp [edgeWrites]

theorem exists_setWrite {i : Nat} (own : AttrSet) (h : k.owner = .set (.loose i)) :
    ∃ x ∈ setWrites (.loose i) own, x.cell = k := by
  cases k with
  | rules s | entries s =>
    rcases s with ⟨g, scope⟩ | n | e | i <;> cases h
    simp [setWrites]
  | _ => cases h

/-- A command that makes a thing writes all its cells. -/
theorem exists_write_of_creates (hc : c.EndsGiven) (h : w.creates c = some k.owner) :
    ∃ x ∈ w.changes c, x.cell = k := by
  obtain ⟨p, hp, hk⟩ := Option.map_eq_some_iff.1 h
  obtain ⟨ha, hs⟩ := siteOf_eq_some_iff.1 hp
  rw [changes, if_pos ha]
  cases c with
  | newGraph kind name strict =>
    cases hs
    exact exists_graphWrite kind name strict hk.symm
  | newSet context html strict entries =>
    cases hs
    obtain ⟨c, hctx⟩ : ∃ c, Context.ofName context = .ok c := by
      have hok := (Bool.and_eq_true_iff.1 ha).2
      cases hctx : Context.ofName context with
      | ok c => exact ⟨c, rfl⟩
      | error e => simp only [hctx] at hok; cases hok
    simp only [writes, hctx, Except.toOption, Option.toList_some, List.flatMap_cons,
      List.flatMap_nil, List.append_nil]
    exact exists_setWrite _ hk.symm
  | newNode name attributes =>
    cases hs
    exact exists_plainWrite name attributes _ hk.symm
  | newHtmlNode name attributes =>
    cases hs
    obtain ⟨x, hx, hxk⟩ := exists_htmlWrite name attributes (.blank .node true false) hk.symm
    exact ⟨x, List.mem_append_left _ hx, hxk⟩
  | newEdge g source target =>
    cases hs
    exact exists_edgeWrite g source target _ hk.symm
  | addNode g name given =>
    cases hs
    obtain ⟨x, hx, hxk⟩ :=
      exists_plainWrite name none ((w.blankNodeSet g false).store given) hk.symm
    exact ⟨x, List.mem_cons_of_mem _ hx, hxk⟩
  | addHtmlNode g name given =>
    cases hs
    obtain ⟨x, hx, hxk⟩ :=
      exists_htmlWrite name none ((w.blankNodeSet g true).store given) hk.symm
    exact ⟨x, List.mem_cons_of_mem _ hx, hxk⟩
  | addEdge g source target given =>
    cases hs
    obtain ⟨s, t, rfl, rfl⟩ := endsGiven_addEdge hc
    obtain ⟨x, hx, hxk⟩ :=
      exists_edgeWrite g s t ((w.blankEdgeSet g).store given) hk.symm
    exact ⟨x, List.mem_cons_of_mem _ hx, hxk⟩
  | _ => cases hs

theorem made_step (hc : c.EndsGiven) (ho : w.made o = true) : (w.step c).1.made o = true :=
  (made_step_iff hc o).2 (.inl ho)

theorem creates_of_accepts {p : Site} (ha : w.accepts c = true) (hs : c.site = some p) :
    w.creates c = some (p.thing (w.tally p)) :=
  creates_eq_thing_iff.2 ⟨siteOf_eq_some_iff.2 ⟨ha, hs⟩, rfl⟩

/-- What was made just now was made. -/
theorem made_of_creates (hc : c.EndsGiven) (h : w.creates c = some o.maker) :
    (w.step c).1.made o = true :=
  (made_step_iff hc o).2 (.inr h)

theorem made_connected (ho : w.made o = true) (g : GraphId) (source target : NodeRef)
    (own : AttrSet) : (w.connected g source target own).made o = true := by
  have hkeeps : Keeps w (w.connected g source target own) := .connected w g source target own
  rcases o with g | n | e | ⟨g, scope⟩ | n | e | serial
  · exact hkeeps.madeGraph ho
  · exact hkeeps.madeNode ho
  · exact hkeeps.madeEdge ho
  · exact hkeeps.madeGraph ho
  · exact hkeeps.madeNode ho
  · exact hkeeps.madeEdge ho
  · have hcount : (w.connected g source target own).count .sets = w.count .sets := by
      rw [connected_eq_writeAll, count_writeAll]
    have hlt : serial < w.count .sets := of_decide_eq_true ho
    rw [← hcount] at hlt
    exact decide_eq_true hlt

/-- What was made stays made, whatever is tried. -/
theorem made_stays (ho : w.made o = true) (c : Command) : (w.step c).1.made o = true := by
  rcases endsGiven_or_addEdge c with hc | ⟨g, source, target, given, rfl⟩
  · exact made_step hc ho
  · have he := w.step_effect (.addEdge g source target given)
    generalize (w.step (.addEdge g source target given)).1 = w' at he
    cases he with
    | refused => exact ho
    | asked h => cases h
    | addEdge => exact made_connected ho g source target _

/-! ## What was there before -/

theorem owner_of_mem_setWrites {s : SetId} {own : AttrSet} {x : Write}
    (hx : x ∈ setWrites s own) : x.cell.owner = s.maker := by
  simp only [setWrites, List.mem_cons, List.not_mem_nil, or_false] at hx
  rcases hx with rfl | rfl <;> rfl

theorem owner_of_mem_graphWrites {g : GraphId} {kind : Kind} {name : String} {strict : Bool}
    {x : Write} (hx : x ∈ graphWrites g kind name strict) : x.cell.owner = .graph g := by
  simp only [graphWrites, List.mem_append, List.mem_cons, List.not_mem_nil, or_false] at hx
  rcases hx with (rfl | rfl | rfl | rfl | rfl | rfl) | hx | hx | hx
  iterate 6 rfl
  iterate 3 exact owner_of_mem_setWrites hx

theorem owner_of_mem_plainWrites {p : PlainId} {name : String} {attributes : Option SetId}
    {own : AttrSet} {x : Write} (hx : x ∈ plainWrites p name attributes own) :
    x.cell.owner = .node (.plain p) := by
  rcases List.mem_cons.1 hx with rfl | hx
  · rfl
  · exact owner_of_mem_setWrites hx

theorem owner_of_mem_htmlWrites {h : HtmlId} {name : String} {attributes : Option SetId}
    {own : AttrSet} {x : Write} (hx : x ∈ htmlWrites h name attributes own) :
    x.cell.owner = .node (.html h) := by
  rcases List.mem_cons.1 hx with rfl | hx
  · rfl
  rcases List.mem_cons.1 hx with rfl | hx
  · rfl
  · exact owner_of_mem_setWrites hx

theorem owner_of_mem_edgeWrites {e : EdgeId} {g : GraphId} {source target : NodeId}
    {own : AttrSet} {x : Write} (hx : x ∈ edgeWrites e g source target own) :
    x.cell.owner = .edge e := by
  simp only [edgeWrites, List.mem_cons] at hx
  rcases hx with rfl | rfl | rfl | hx
  iterate 3 rfl
  exact owner_of_mem_setWrites hx

/-- The cells that a command writes if it is accepted, of the things that were there before. -/
def overwrites (w : Workspace) : Command → List Cell
  | .newHtmlNode _ attributes => attributes.toList.map .entries
  | .addNode g .. => [.plainNodes g]
  | .addHtmlNode g .. => [.htmlNodes g]
  | .removeNode g _ force => [.plainNodes g, .htmlNodes g] ++ if force then [.edges g] else []
  | .addEdge g .. => [.edges g]
  | .attach parent child =>
    [.clusters parent, .parent child] ++ (w.detachWrites parent child).map Write.cell
  | .assign o _ => [.entries (w.setOf o)]
  | .assignDefaults g scope _ => [.entries (.defaults g scope)]
  | .renameGraph g _ | .setGraphStrict g _ => [.head g]
  | .renameNode n _ => [.node n]
  | .setStrict s _ => [.rules s]
  | .addRow h _ | .setTable h _ => [.table h]
  | .setPort e side .. => [.port e side]
  | _ => []

/-- What attaching overwrites: the clusters of the parent, the parent of the child, and that of the
graph that is let go. -/
theorem mem_overwrites_attach {parent child : GraphId}
    (hk : k ∈ w.overwrites (.attach parent child)) :
    k = .clusters parent ∨ k = .parent child ∨ ∃ old,
      (w.graph parent).clusters.get? (w.graph child).name = some old ∧ k = .parent old := by
  simp only [overwrites, List.mem_append, List.mem_cons, List.not_mem_nil, or_false] at hk
  rcases hk with (rfl | rfl) | hk
  · exact .inl rfl
  · exact .inr (.inl rfl)
  · obtain ⟨x, hx, rfl⟩ := List.mem_map.1 hk
    obtain ⟨old, hold, rfl⟩ := List.mem_map.1 hx
    exact .inr (.inr ⟨old, Option.mem_toList.1 (List.mem_filter.1 hold).1, rfl⟩)

/-- **What a command writes belongs to the thing that it makes, or is overwritten.** -/
theorem creates_or_overwrites (hc : c.EndsGiven) {x : Write} (hx : x ∈ w.changes c) :
    w.creates c = some x.cell.owner ∨ x.cell ∈ w.overwrites c := by
  obtain ⟨ha, hx⟩ := mem_changes_iff.1 hx
  have hnew : ∀ p : Site, c.site = some p → x.cell.owner = p.thing (w.tally p) →
      w.creates c = some x.cell.owner ∨ x.cell ∈ w.overwrites c := fun p hp ho =>
    .inl (ho ▸ creates_of_accepts ha hp)
  cases c with
  | newGraph => exact hnew _ rfl (owner_of_mem_graphWrites hx)
  | newSet =>
    obtain ⟨_, -, hx⟩ := List.mem_flatMap.1 hx
    exact hnew _ rfl (owner_of_mem_setWrites hx)
  | newNode => exact hnew _ rfl (owner_of_mem_plainWrites hx)
  | newHtmlNode name attributes =>
    rcases List.mem_append.1 hx with hx | hx
    · exact hnew _ rfl (owner_of_mem_htmlWrites hx)
    · obtain ⟨s, hs, rfl⟩ := List.mem_map.1 hx
      exact .inr (List.mem_map_of_mem hs)
  | newEdge => exact hnew _ rfl (owner_of_mem_edgeWrites hx)
  | addNode =>
    rcases List.mem_cons.1 hx with rfl | hx
    · exact .inr (List.mem_singleton.2 rfl)
    · exact hnew _ rfl (owner_of_mem_plainWrites hx)
  | addHtmlNode =>
    rcases List.mem_cons.1 hx with rfl | hx
    · exact .inr (List.mem_singleton.2 rfl)
    · exact hnew _ rfl (owner_of_mem_htmlWrites hx)
  | addEdge g source target given =>
    obtain ⟨s, t, rfl, rfl⟩ := endsGiven_addEdge hc
    rcases List.mem_cons.1 hx with rfl | hx
    · exact .inr (List.mem_singleton.2 rfl)
    · exact hnew _ rfl (owner_of_mem_edgeWrites hx)
  | removeNode g name force =>
    right
    rcases List.mem_append.1 hx with hx | hx
    · simp only [List.mem_cons, List.not_mem_nil, or_false] at hx
      rcases hx with rfl | rfl <;> simp [overwrites]
    · cases force with
      | false => cases hx
      | true =>
        obtain rfl := List.mem_singleton.1 hx
        simp [overwrites]
  | attach parent child =>
    right
    rcases List.mem_append.1 hx with hx | hx
    · exact List.mem_append_right _ (List.mem_map_of_mem hx)
    · simp only [List.mem_cons, List.not_mem_nil, or_false] at hx
      rcases hx with rfl | rfl <;> simp [overwrites]
  | assign | assignDefaults | renameGraph | renameNode | setGraphStrict | setStrict | addRow =>
    obtain rfl := List.mem_singleton.1 hx
    exact .inr (List.mem_singleton.2 rfl)
  | setTable | setPort =>
    obtain ⟨a, -, rfl⟩ := List.mem_map.1 hx
    exact .inr (List.mem_singleton.2 rfl)
  | _ => cases hx

/-- A cell that a command does not write is no part of what it makes. -/
theorem made_of_forall_ne (hc : c.EndsGiven) (hk : (w.step c).1.made k.owner = true)
    (hx : ∀ x ∈ w.changes c, x.cell ≠ k) : w.made k.owner = true := by
  rcases (made_step_iff hc k.owner).1 hk with hold | hnew
  · exact hold
  · rw [maker_owner] at hnew
    obtain ⟨x, hmem, hxk⟩ := exists_write_of_creates hc hnew
    exact absurd hxk (hx x hmem)

/-- What is counted later was not made. -/
theorem made_thing_of_le {p : Site} {i : Nat} (h : w.tally p ≤ i) : w.made (p.thing i) = false := by
  rw [made_thing, decide_eq_false (Nat.not_lt.2 h), Bool.and_false]

/-- What a command makes was not made before. -/
theorem made_of_creates_eq_false (h : w.creates c = some o) : w.made o = false := by
  obtain ⟨p, -, rfl⟩ := Option.map_eq_some_iff.1 h
  exact made_thing_of_le (Nat.le_refl _)

/-! ## Edges between names -/

/-- The commands that an edge to a graph comes down to: nodes without attributes are added to the
graph, and then an edge between two nodes. -/
def AddsTo (g : GraphId) (given : Attrs) (c : Command) : Prop :=
  (∃ name, c = .addNode g name .empty) ∨ ∃ s t, c = .addEdge g (.given s) (.given t) given

theorem AddsTo.endsGiven {g : GraphId} {given : Attrs} (h : AddsTo g given c) : c.EndsGiven := by
  rcases h with ⟨name, rfl⟩ | ⟨s, t, rfl⟩ <;> trivial

theorem accepts_addNode_empty {g : GraphId} (hg : w.madeGraph g = true) (name : String) :
    w.accepts (.addNode g name .empty) = true := by
  have hcheck : ((w.blankNodeSet g false).check .empty).isOk = true := by
    unfold AttrSet.check
    cases (w.blankNodeSet g false).strict <;> rfl
  simp [accepts, Command.mentions, made, hg, hcheck]

/-- To resolve an end comes down to adding a node, if there is none of the name. -/
theorem resolve_eq_run {g : GraphId} (hg : w.madeGraph g = true) (given : Attrs) (r : NodeRef) :
    ∃ cs, (∀ d ∈ cs, AddsTo g given d) ∧ (w.resolve g r).1 = (w.run cs).1 := by
  cases r with
  | given n => exact ⟨[], fun d hd => absurd hd List.not_mem_nil, rfl⟩
  | named name =>
    cases hn : (w.graph g).node? name with
    | some n =>
      refine ⟨[], fun d hd => absurd hd List.not_mem_nil, ?_⟩
      simp only [resolve, hn]
      rfl
    | none =>
      refine ⟨[.addNode g name .empty], ?_, ?_⟩
      · exact List.forall_mem_singleton.2 (.inl ⟨name, rfl⟩)
      · have hstep : (w.step (.addNode g name .empty)).1 = (w.resolve g (.named name)).1 := by
          rw [step_of_accepts (accepts_addNode_empty hg name), resolve_eq, resolveWrites, hn]
          rfl
        exact hstep.symm

theorem strict_resolve (w : Workspace) (g : GraphId) (r : NodeRef) :
    ((w.resolve g r).1.graph g).strict = (w.graph g).strict := by
  cases r with
  | given n => rfl
  | named name =>
    rcases w.resolve_named g name with ⟨n, -, he⟩ | ⟨attributes, -, he⟩
    · rw [he]
    · rw [he, graph_placePlain, if_pos rfl]

/-- The node that a reference is resolved to was made. -/
theorem madeNode_resolve {g : GraphId}
    (hw : ∀ x n, (w.graph g).node? x = some n → w.madeNode n = true)
    (hg : w.madeGraph g = true) {r : NodeRef} (hr : r.mentions.all w.made = true) :
    (w.resolve g r).1.madeNode (w.resolve g r).2 = true := by
  cases r with
  | given n =>
    have hn : w.madeNode n = true := by simpa [NodeRef.mentions, made] using hr
    exact hn
  | named name =>
    rcases w.resolve_named g name with ⟨n, hn, he⟩ | ⟨attributes, -, he⟩
    · rw [he]
      exact hw name n hn
    · rw [he]
      exact madeNode_placePlain name attributes hg

theorem madeNode_of_node?_resolve {g : GraphId}
    (hw : ∀ x n, (w.graph g).node? x = some n → w.madeNode n = true) (hg : w.madeGraph g = true)
    (r : NodeRef) (x : String) (n : NodeId) (h : ((w.resolve g r).1.graph g).node? x = some n) :
    (w.resolve g r).1.madeNode n = true := by
  cases r with
  | given m => exact hw x n h
  | named name =>
    rcases w.resolve_named g name with ⟨m, -, he⟩ | ⟨attributes, -, he⟩
    · rw [he] at h ⊢
      exact hw x n h
    · rw [he] at h ⊢
      rw [node?_placePlain] at h
      by_cases hx : g = g ∧ x = name
      · rw [if_pos hx] at h
        cases h
        exact madeNode_placePlain name attributes hg
      · rw [if_neg hx] at h
        exact (Keeps.placePlain w g name attributes).madeNode (hw x n h)

theorem Keeps.all_made {r : NodeRef} (hk : Keeps w w') (hr : r.mentions.all w.made = true) :
    r.mentions.all w'.made = true := by
  cases r with
  | named => rfl
  | given n =>
    have hn : w.madeNode n = true := by simpa [NodeRef.mentions, made] using hr
    simpa [NodeRef.mentions, made] using hk.madeNode hn

theorem accepts_addEdge_given {g : GraphId} {s t : NodeId} {given : Attrs}
    (hg : w.madeGraph g = true) (hs : w.madeNode s = true) (ht : w.madeNode t = true)
    (hcheck : ((w.blankEdgeSet g).check given).isOk = true) :
    w.accepts (.addEdge g (.given s) (.given t) given) = true := by
  simp only [accepts, Command.mentions, NodeRef.mentions, List.all_cons, List.all_append,
    List.all_nil, made, hg, hs, ht, hcheck, Bool.and_true]

/-- **An edge between names comes down to nodes and an edge between nodes.** -/
theorem step_addEdge_eq_run {g : GraphId}
    (hw : ∀ x n, (w.graph g).node? x = some n → w.madeNode n = true) (source target : NodeRef)
    (given : Attrs) :
    ∃ cs, (∀ d ∈ cs, AddsTo g given d) ∧
      (w.step (.addEdge g source target given)).1 = (w.run cs).1 := by
  by_cases ha : w.accepts (.addEdge g source target given) = true
  · obtain ⟨hm, hcheck⟩ := Bool.and_eq_true_iff.1 ha
    simp only [Command.mentions, List.all_cons, List.all_append, Bool.and_eq_true] at hm
    obtain ⟨hg, hs, ht⟩ := hm
    -- the workspaces after the source and after the target are resolved
    obtain ⟨cs₁, hcs₁, hrun₁⟩ := resolve_eq_run hg given source
    generalize hw₁ : (w.resolve g source).1 = w₁ at hrun₁
    have hk₁ : Keeps w w₁ := hw₁ ▸ Keeps.resolve w g source
    have hg₁ : w₁.madeGraph g = true := hk₁.madeGraph hg
    have hs₁ : w₁.madeNode (w.resolve g source).2 = true := hw₁ ▸ madeNode_resolve hw hg hs
    have hlisted : ∀ x n, (w₁.graph g).node? x = some n → w₁.madeNode n = true :=
      hw₁ ▸ madeNode_of_node?_resolve hw hg source
    obtain ⟨cs₂, hcs₂, hrun₂⟩ := resolve_eq_run hg₁ given target
    generalize hw₂ : (w₁.resolve g target).1 = w₂ at hrun₂
    have hk₂ : Keeps w₁ w₂ := hw₂ ▸ Keeps.resolve w₁ g target
    have ht₂ : w₂.madeNode (w₁.resolve g target).2 = true :=
      hw₂ ▸ madeNode_resolve hlisted hg₁ (hk₁.all_made ht)
    have hstrict : w₂.blankEdgeSet g = w.blankEdgeSet g := by
      rw [blankEdgeSet, blankEdgeSet, ← hw₂, strict_resolve, ← hw₁, strict_resolve]
    let edge : Command := .addEdge g (.given (w.resolve g source).2)
      (.given (w₁.resolve g target).2) given
    have hedge : w₂.accepts edge = true :=
      accepts_addEdge_given (hk₂.madeGraph hg₁) (hk₂.madeNode hs₁) ht₂ (hstrict ▸ hcheck)
    refine ⟨cs₁ ++ (cs₂ ++ [edge]), ?_, ?_⟩
    · intro d hd
      simp only [List.mem_append, List.mem_singleton] at hd
      rcases hd with hd | hd | rfl
      · exact hcs₁ d hd
      · exact hcs₂ d hd
      · exact .inr ⟨_, _, rfl⟩
    · rw [run_append, ← hrun₁, run_append, ← hrun₂]
      show _ = (w₂.step edge).1
      rw [step_of_accepts ha, step_of_accepts hedge]
      show w.writeAll (w.connectWrites g source target _) = w₂.writeAll (w₂.placeEdgeWrites g _ _ _)
      rw [← connected_eq_writeAll, ← placeEdge_eq, connected_eq, hw₁, hw₂, hstrict]
  · exact ⟨[], fun d hd => absurd hd List.not_mem_nil, step_of_not_accepts ha⟩

end Workspace

end DotBuilder
