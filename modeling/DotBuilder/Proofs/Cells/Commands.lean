import DotBuilder.Proofs.Cells.Basic
import DotBuilder.Proofs.References.Listing

/-!
# Commands as writes

Every command that changes something writes a list of cells, if it is accepted, and counts at most
one more thing.  `Workspace.changes` is this list: it is a function of the workspace, so that what
commands change can be compared, cut down to a cell, and put in another order.

* `step_eq` : a command does its changes, and nothing else;
* `content_step` : what a command does to a single cell.
-/

namespace DotBuilder

/-- What a command makes one more of, of what a workspace counts as a whole. -/
def Command.series : Command → Option Series
  | newGraph .. => some .graphs
  | newSet .. => some .sets
  | newNode .. => some .plain
  | newHtmlNode .. => some .html
  | newEdge .. => some .edges
  | _ => none

namespace Workspace

variable {w w' : Workspace} {c : Command} {k : Cell}

/-! ## Changes -/

/-- The writes that give a set its rules and its entries. -/
def setWrites (s : SetId) (r : AttrSet) : List Write :=
  [⟨.rules s, (r.context, r.strict)⟩, ⟨.entries s, (r.html, r.entries)⟩]

/-- The writes that make a graph. -/
def graphWrites (g : GraphId) (kind : Kind) (name : String) (strict : Bool) : List Write :=
  [⟨.head g, (kind, name, strict)⟩, ⟨.parent g, none⟩, ⟨.clusters g, .empty⟩,
    ⟨.plainNodes g, (.empty, 0)⟩, ⟨.htmlNodes g, (.empty, 0)⟩, ⟨.edges g, ([], 0)⟩] ++
  (setWrites (.defaults g .graph) (blankDefaults .graph strict) ++
    (setWrites (.defaults g .node) (blankDefaults .node strict) ++
      setWrites (.defaults g .edge) (blankDefaults .edge strict)))

/-- The writes that make a plain node with a set of its own or a given one. -/
def plainWrites (p : PlainId) (name : String) (attributes : Option SetId) (own : AttrSet) :
    List Write :=
  ⟨.node (.plain p), ⟨name, attributes.getD (.node (.plain p))⟩⟩ ::
    setWrites (.node (.plain p)) own

/-- The writes that make an HTML node with a set of its own or a given one. -/
def htmlWrites (h : HtmlId) (name : String) (attributes : Option SetId) (own : AttrSet) :
    List Write :=
  ⟨.node (.html h), ⟨name, attributes.getD (.node (.html h))⟩⟩ :: ⟨.table h, .blank⟩ ::
    setWrites (.node (.html h)) own

/-- The writes that make an edge. -/
def edgeWrites (e : EdgeId) (g : GraphId) (source target : NodeId) (own : AttrSet) : List Write :=
  ⟨.ends e, (g, source, target)⟩ :: ⟨.port e .source, .anywhere⟩ :: ⟨.port e .target, .anywhere⟩ ::
    setWrites (.edge e) own

/-- The writes that make and list a plain node of a graph. -/
def placePlainWrites (w : Workspace) (g : GraphId) (name : String) (own : AttrSet) : List Write :=
  let p : PlainId := ⟨.graph g (w.graph g).plainMade⟩
  ⟨.plainNodes g, ((w.graph g).nodes.insert name p, (w.graph g).plainMade + 1)⟩ ::
    plainWrites p name none own

/-- The writes that make and list an HTML node of a graph. -/
def placeHtmlWrites (w : Workspace) (g : GraphId) (name : String) (own : AttrSet) : List Write :=
  let h : HtmlId := ⟨.graph g (w.graph g).htmlMade⟩
  ⟨.htmlNodes g, ((w.graph g).htmlNodes.insert name h, (w.graph g).htmlMade + 1)⟩ ::
    htmlWrites h name none own

/-- The writes that make and list an edge of a graph. -/
def placeEdgeWrites (w : Workspace) (g : GraphId) (source target : NodeId) (own : AttrSet) :
    List Write :=
  let e : EdgeId := ⟨.graph g (w.graph g).edgesMade⟩
  ⟨.edges g, ((w.graph g).edges ++ [e], (w.graph g).edgesMade + 1)⟩ ::
    edgeWrites e g source target own

/-- The writes that make the node of a reference, if there is none. -/
def resolveWrites (w : Workspace) (g : GraphId) : NodeRef → List Write
  | .given _ => []
  | .named name =>
    match (w.graph g).node? name with
    | some _ => []
    | none => w.placePlainWrites g name (w.blankNodeSet g false)

/-- The writes that add an edge to a graph. -/
def connectWrites (w : Workspace) (g : GraphId) (source target : NodeRef) (own : AttrSet) :
    List Write :=
  let (w₁, s) := w.resolve g source
  let (w₂, t) := w₁.resolve g target
  w.resolveWrites g source ++ (w₁.resolveWrites g target ++ w₂.placeEdgeWrites g s t own)

/-- The write that lets another cluster of a name go. -/
def detachWrites (w : Workspace) (parent child : GraphId) : List Write :=
  (((w.graph parent).clusters.get? (w.graph child).name).toList.filter (· ≠ child)).map
    fun old => ⟨.parent old, none⟩

/-- The write that stores attributes in a set. -/
def storeWrite (w : Workspace) (s : SetId) (given : Attrs) : Write :=
  ⟨.entries s, ((w.attrSet s).html, (w.attrSet s).entries.insertAll given)⟩

/-- What a command writes if nothing speaks against it. -/
def writes (w : Workspace) : Command → List Write
  | .newGraph kind name strict => graphWrites ⟨w.graphsMade⟩ kind name strict
  | .newSet context html strict entries =>
    (Context.ofName context).toOption.toList.flatMap fun c =>
      setWrites (.loose w.setsMade) ⟨c, html, strict, entries⟩
  | .newNode name attributes =>
    plainWrites ⟨.loose w.plainMade⟩ name attributes (.blank .node false false)
  | .newHtmlNode name attributes =>
    htmlWrites ⟨.loose w.htmlMade⟩ name attributes (.blank .node true false) ++
      attributes.toList.map fun s => ⟨.entries s, (true, (w.attrSet s).entries)⟩
  | .newEdge g source target =>
    edgeWrites ⟨.loose w.edgesMade⟩ g source target (.blank .edge false false)
  | .addNode g name given => w.placePlainWrites g name ((w.blankNodeSet g false).store given)
  | .addHtmlNode g name given => w.placeHtmlWrites g name ((w.blankNodeSet g true).store given)
  | .removeNode g name force =>
    [⟨.plainNodes g, ((w.graph g).nodes.erase name, (w.graph g).plainMade)⟩,
      ⟨.htmlNodes g, ((w.graph g).htmlNodes.erase name, (w.graph g).htmlMade)⟩] ++
    if force then
      [⟨.edges g, ((w.graph g).edges.filter fun e => !w.touches name e, (w.graph g).edgesMade)⟩]
    else []
  | .addEdge g source target given =>
    w.connectWrites g source target ((w.blankEdgeSet g).store given)
  | .attach parent child =>
    w.detachWrites parent child ++
      [⟨.clusters parent, (w.graph parent).clusters.insert (w.graph child).name child⟩,
        ⟨.parent child, some parent⟩]
  | .assign o given => [w.storeWrite (w.setOf o) given]
  | .assignDefaults g scope given => [w.storeWrite (.defaults g scope) given]
  | .renameGraph g name => [⟨.head g, ((w.graph g).kind, name, (w.graph g).strict)⟩]
  | .renameNode n name => [⟨.node n, ⟨name, (w.node n).attributes⟩⟩]
  | .setGraphStrict g strict => [⟨.head g, ((w.graph g).kind, (w.graph g).name, strict)⟩]
  | .setStrict s strict => [⟨.rules s, ((w.attrSet s).context, strict)⟩]
  | .addRow h sources => [⟨.table h, (w.table h).addRow (sources.map Html.CellSource.cell)⟩]
  | .setTable h attributes =>
    attributes.toList.map fun a => ⟨.table h, (w.table h).setAttributes a⟩
  | .setPort e side name compass =>
    (Compass.ofText compass).toOption.toList.map fun c => ⟨.port e side, ⟨name, c⟩⟩
  | _ => []

/-- Whether nothing speaks against what a command would write. -/
def accepts (w : Workspace) (c : Command) : Bool :=
  c.mentions.all w.made &&
    match c with
    | .newSet context .. => (Context.ofName context).isOk
    | .addNode g _ given => ((w.blankNodeSet g false).check given).isOk
    | .addHtmlNode g _ given => ((w.blankNodeSet g true).check given).isOk
    | .addEdge g _ _ given => ((w.blankEdgeSet g).check given).isOk
    | .attach parent child => (w.attachError? parent child).isNone
    | .assign o given => ((w.attrSet (w.setOf o)).check given).isOk
    | .assignDefaults g scope given => ((w.attrSet (.defaults g scope)).check given).isOk
    | .setTable _ attributes => attributes.isSome
    | .setPort _ _ _ compass => (Compass.ofText compass).isOk
    | _ => true

/-- What a command writes. -/
def changes (w : Workspace) (c : Command) : List Write := if w.accepts c then w.writes c else []

/-- What a command makes one more of. -/
def counted (w : Workspace) (c : Command) : Option Series :=
  if w.accepts c then c.series else none

/-! ## Changes of single things -/

theorem writeAll_setWrites (s : SetId) (r : AttrSet) :
    w.writeAll (setWrites s r) = { w with sets := w.sets.set s r } := by
  simp [setWrites, writeAll, write, modifySet, Registry.modify, Registry.set_set,
    Registry.get_set_self]

theorem placePlain_eq (g : GraphId) (name : String) (own : AttrSet) :
    (w.placePlain g name own).1 = w.writeAll (w.placePlainWrites g name own) := by
  rw [placePlainWrites, plainWrites, writeAll_cons, writeAll_cons, writeAll_setWrites]
  rfl

theorem placeHtml_eq (g : GraphId) (name : String) (own : AttrSet) :
    (w.placeHtml g name own).1 = w.writeAll (w.placeHtmlWrites g name own) := by
  rw [placeHtmlWrites, htmlWrites, writeAll_cons, writeAll_cons, writeAll_cons, writeAll_setWrites]
  rfl

theorem writeAll_edgeWrites (e : EdgeId) (g : GraphId) (source target : NodeId) (own : AttrSet) :
    w.writeAll (edgeWrites e g source target own) =
      { w with
        edges := w.edges.set e ⟨g, ⟨source, .anywhere⟩, ⟨target, .anywhere⟩⟩
        sets := w.sets.set (.edge e) own } := by
  simp [edgeWrites, writeAll_cons, writeAll_setWrites, write, modifyPort, Registry.modify_modify]
  rfl

theorem placeEdge_eq (g : GraphId) (source target : NodeId) (own : AttrSet) :
    (w.placeEdge g source target own).1 = w.writeAll (w.placeEdgeWrites g source target own) := by
  rw [placeEdgeWrites, writeAll_cons, writeAll_edgeWrites]
  rfl

theorem resolve_eq (g : GraphId) (r : NodeRef) :
    (w.resolve g r).1 = w.writeAll (w.resolveWrites g r) := by
  cases r with
  | given n => rfl
  | named name =>
    unfold resolve resolveWrites
    dsimp only
    cases (w.graph g).node? name with
    | some n => rfl
    | none => exact placePlain_eq g name _

theorem connected_eq_writeAll (g : GraphId) (source target : NodeRef) (own : AttrSet) :
    w.connected g source target own = w.writeAll (w.connectWrites g source target own) := by
  rw [connected_eq, placeEdge_eq, connectWrites, writeAll_append, writeAll_append, ← resolve_eq,
    ← resolve_eq]

theorem newGraph_eq (kind : Kind) (name : String) (strict : Bool) :
    (w.newGraph kind name strict).1 =
      (w.writeAll (graphWrites ⟨w.graphsMade⟩ kind name strict)).advance (some .graphs) := by
  rw [graphWrites, writeAll_append, writeAll_append, writeAll_append, writeAll_setWrites,
    writeAll_setWrites, writeAll_setWrites]
  simp [writeAll, write, modifyGraph, Registry.modify_modify]
  rfl

theorem newHtml_eq (name : String) {attributes : Option SetId}
    (hs : ∀ s ∈ attributes, w.madeSet s) :
    (w.newHtml name attributes).1 =
      (w.writeAll (w.writes (.newHtmlNode name attributes))).advance (some .html) := by
  rw [writes, writeAll_append, htmlWrites, writeAll_cons, writeAll_cons, writeAll_setWrites]
  cases attributes with
  | none =>
    simp [newHtml, writeAll, write, advance, Registry.modify, Registry.get_set_self,
      Registry.set_set, AttrSet.blank]
  | some s =>
    have hne : s ≠ .node (.html ⟨.loose w.htmlMade⟩) := by
      rintro rfl
      simpa [madeSet, madeNode] using hs _ rfl
    simp [newHtml, writeAll, write, advance, modifySet, attrSet, Registry.modify,
      Registry.get_set_of_ne _ _ hne]

theorem modifyGraph_congr {g : GraphId} {f f' : Graph → Graph}
    (h : f (w.graph g) = f' (w.graph g)) : w.modifyGraph g f = w.modifyGraph g f' := by
  have hset : w.graphs.modify g f = w.graphs.modify g f' := by
    unfold Registry.modify
    rw [show f (w.graphs.get g) = f' (w.graphs.get g) from h]
  rw [modifyGraph, modifyGraph, hset]

theorem modifySet_congr {s : SetId} {f f' : AttrSet → AttrSet}
    (h : f (w.attrSet s) = f' (w.attrSet s)) : w.modifySet s f = w.modifySet s f' := by
  have hset : w.sets.modify s f = w.sets.modify s f' := by
    unfold Registry.modify
    rw [show f (w.sets.get s) = f' (w.sets.get s) from h]
  rw [modifySet, modifySet, hset]

theorem removeNode_eq (g : GraphId) (name : String) (force : Bool) :
    w.removeNode g name force = w.writeAll (w.writes (.removeNode g name force)) := by
  have hmerge : ∀ f h : Graph → Graph, (w.modifyGraph g f).modifyGraph g h =
      w.modifyGraph g fun r => h (f r) := by
    intro f h
    rw [modifyGraph, modifyGraph, modifyGraph, Registry.modify_modify]
  cases force with
  | false =>
    simp only [writes, Bool.false_eq_true, if_false, List.append_nil, writeAll_cons, write, hmerge]
    exact modifyGraph_congr rfl
  | true =>
    simp only [writes, if_true, List.cons_append, List.nil_append, writeAll_cons, write, hmerge]
    exact modifyGraph_congr rfl

theorem store_eq (s : SetId) (given : Attrs) :
    (w.modifySet s fun r => r.store given) = w.writeAll [w.storeWrite s given] :=
  modifySet_congr rfl

theorem detachOther_eq (parent child : GraphId) :
    w.detachOther parent child (w.graph child).name = w.writeAll (w.detachWrites parent child) := by
  unfold detachOther detachWrites
  cases (w.graph parent).clusters.get? (w.graph child).name with
  | none => rfl
  | some old => by_cases ho : old = child <;> simp [ho, writeAll, write, setParent]

theorem attached_eq (parent child : GraphId) :
    w.attached parent child = w.writeAll (w.writes (.attach parent child)) := by
  rw [writes, writeAll_append, attached, detachOther_eq]
  generalize hv : w.writeAll (w.detachWrites parent child) = v
  have hgraph : ∀ g, (v.graph g).clusters = (w.graph g).clusters ∧
      (v.graph g).name = (w.graph g).name := by
    intro g
    rw [← hv, ← detachOther_eq, graph_detachOther]
    split <;> exact ⟨rfl, rfl⟩
  have hlist : v.listCluster parent child =
      v.write ⟨.clusters parent, (w.graph parent).clusters.insert (w.graph child).name child⟩ := by
    refine modifyGraph_congr ?_
    rw [(hgraph parent).1, (hgraph child).2]
  rw [hlist]
  rfl

/-! ## Steps -/

theorem writes_of_asks (h : c.asks = true) : w.writes c = [] := by
  cases c <;> first | rfl | cases h

theorem series_of_asks (h : c.asks = true) : c.series = none := by
  cases c <;> first | rfl | cases h

/-- What is accepted is not refused. -/
theorem not_refused_of_accepts (hc : c.asks = false) (h : w.accepts c = true) (e : Error) :
    (w.step c).2.result ≠ .error e := by
  intro he
  obtain ⟨hm, ha⟩ := Bool.and_eq_true_iff.1 h
  obtain ⟨s, hs⟩ : ∃ s, Action.perform c ⟨w, []⟩ = .error e s := by
    unfold step at he
    cases hp : Action.perform c ⟨w, []⟩ with
    | ok o s => rw [hp] at he; cases he
    | error e' s => rw [hp] at he; cases he; exact ⟨s, rfl⟩
  unfold Action.perform at hs
  rcases Action.bind_eq_error_iff.1 hs with hs | ⟨_, s', hs', hs⟩
  · have hr := (Action.require_eq_error_iff.1 hs).1
    rw [if_pos hm] at hr
    cases hr
  obtain rfl : s' = ⟨w, []⟩ := Action.quiet_require _ _ _ _ hs'
  cases c with
  | newGraph | newNode | newHtmlNode | newEdge =>
    exact ((Action.certain_make _).bind fun _ => Action.certain_present _ _) _ _ _ hs
  | removeNode | renameGraph | renameNode | setGraphStrict | setStrict | addRow =>
    exact ((Action.certain_change _).bind fun _ => Action.certain_answer _) _ _ _ hs
  | newSet =>
    have hr := Action.eq_error_of_bind_certain
      (fun _ => (Action.certain_make _).bind fun _ => Action.certain_present _ _) hs
    have hname := (Action.require_eq_error_iff.1 hr).1
    simp only [hname] at ha
    cases ha
  | addNode | addHtmlNode =>
    have hr := Action.eq_error_of_bind_certain (fun _ => Action.certain_present _ _) hs
    have hcheck := Action.check_of_fill_eq_error
      (Action.eq_error_of_bind_certain (fun _ => Action.certain_make _) hr)
    simp only [hcheck] at ha
    cases ha
  | addEdge =>
    have hr := Action.eq_error_of_bind_certain (fun _ => Action.certain_present _ _) hs
    have hcheck := Action.check_of_fill_eq_error (Action.eq_error_of_bind_certain (fun _ =>
      (Action.certain_make _).bind fun _ =>
        (Action.certain_make _).bind fun _ => Action.certain_make _) hr)
    simp only [hcheck] at ha
    cases ha
  | attach parent child =>
    have hr := Action.eq_error_of_bind_certain (fun _ => Action.certain_answer _) hs
    have hmay := (Action.require_eq_error_iff.1 (Action.eq_error_of_bind_certain (fun _ =>
      (Action.certain_change _).bind fun _ =>
        (Action.certain_change _).bind fun _ => Action.certain_change _) hr)).1
    have hnone : w.attachError? parent child = none := Option.isNone_iff_eq_none.1 ha
    rw [mayAttach_eq_ok_iff.2 hnone] at hmay
    cases hmay
  | assign | assignDefaults =>
    have hr := Action.eq_error_of_bind_certain (fun _ => Action.certain_answer _) hs
    have hcheck := Action.check_of_assign_eq_error hr
    simp only [hcheck] at ha
    cases ha
  | setTable k attributes =>
    have hr := Action.eq_error_of_bind_certain
      (fun _ => (Action.certain_change _).bind fun _ => Action.certain_answer _) hs
    have hgiven := (Action.require_eq_error_iff.1 hr).1
    cases attributes with
    | none => cases ha
    | some _ => cases hgiven
  | setPort =>
    have hr := Action.eq_error_of_bind_certain (fun _ => Action.certain_answer _) hs
    have hcompass := (Action.require_eq_error_iff.1 (Action.eq_error_of_bind_certain
      (fun _ => (Action.certain_change _).bind fun _ => Action.certain_change _) hr)).1
    simp only [hcompass] at ha
    cases ha
  | _ => cases hc

theorem changes_of_asks (h : c.asks = true) : w.changes c = [] := by
  rw [changes, writes_of_asks h, ite_self]

theorem counted_of_asks (h : c.asks = true) : w.counted c = none := by
  rw [counted, series_of_asks h, ite_self]

/-- **A command does its changes, and nothing else.** -/
theorem step_eq (w : Workspace) (c : Command) :
    (w.step c).1 = (w.writeAll (w.changes c)).advance (w.counted c) := by
  have he : w.Effect c (w.step c).1 := w.step_effect c
  have of_accepts : ∀ v, w.accepts c = true → v = (w.writeAll (w.writes c)).advance c.series →
      v = (w.writeAll (w.changes c)).advance (w.counted c) := by
    intro v ha hv
    rw [changes, counted, if_pos ha, if_pos ha, hv]
  generalize hw' : (w.step c).1 = w' at he
  cases he with
  | refused hr =>
    have hnone : w.changes c = [] ∧ w.counted c = none := by
      cases hc : c.asks with
      | true => exact ⟨changes_of_asks hc, counted_of_asks hc⟩
      | false =>
        have ha : ¬ w.accepts c = true := fun ha => not_refused_of_accepts hc ha _ hr
        exact ⟨if_neg ha, if_neg ha⟩
    rw [hnone.1, hnone.2]
    rfl
  | asked hc =>
    rw [changes_of_asks hc, counted_of_asks hc]
    rfl
  | newGraph kind name strict => exact of_accepts _ rfl (newGraph_eq kind name strict)
  | newSet html strict entries h =>
    refine of_accepts _ (by simp [accepts, Command.mentions, h]; rfl) ?_
    simp only [writes, h, Except.toOption, Option.toList_some, List.flatMap_cons, List.flatMap_nil,
      List.append_nil, writeAll_setWrites]
    rfl
  | newNode name attributes hs =>
    refine of_accepts _ (by simpa [accepts, Command.mentions, made] using hs) ?_
    rw [writes, plainWrites, writeAll_cons, writeAll_setWrites]
    rfl
  | newHtmlNode name attributes hs =>
    exact of_accepts _ (by simpa [accepts, Command.mentions, made] using hs) (newHtml_eq name hs)
  | newEdge hg hs ht =>
    refine of_accepts _ (by simp [accepts, Command.mentions, made, hg, hs, ht]) ?_
    rw [writes, writeAll_edgeWrites]
    rfl
  | addNode name hg h =>
    exact of_accepts _ (by simp [accepts, Command.mentions, made, hg, h]; rfl) (placePlain_eq _ _ _)
  | addHtmlNode name hg h =>
    exact of_accepts _ (by simp [accepts, Command.mentions, made, hg, h]; rfl) (placeHtml_eq _ _ _)
  | removeNode name force hg =>
    exact of_accepts _ (by simp [accepts, Command.mentions, made, hg]) (removeNode_eq _ name force)
  | addEdge hg hs ht h =>
    refine of_accepts _ ?_ (connected_eq_writeAll _ _ _ _)
    simp only [accepts, Command.mentions, List.all_cons, List.all_append, made, hg, hs, ht, h]
    rfl
  | attach hp hc h =>
    exact of_accepts _ (by simp [accepts, Command.mentions, made, hp, hc, h]) (attached_eq _ _)
  | assign ho h =>
    exact of_accepts _ (by simp [accepts, Command.mentions, ho, h]; rfl) (store_eq _ _)
  | assignDefaults hg h =>
    exact of_accepts _ (by simp [accepts, Command.mentions, made, hg, h]; rfl) (store_eq _ _)
  | renameGraph name hg =>
    exact of_accepts _ (by simp [accepts, Command.mentions, made, hg]) (modifyGraph_congr rfl)
  | renameNode name hn =>
    exact of_accepts _ (by simp [accepts, Command.mentions, made, hn]) rfl
  | setGraphStrict strict hg =>
    exact of_accepts _ (by simp [accepts, Command.mentions, made, hg]) (modifyGraph_congr rfl)
  | setStrict strict hs =>
    exact of_accepts _ (by simp [accepts, Command.mentions, made, hs]) (modifySet_congr rfl)
  | addRow sources hh =>
    exact of_accepts _ (by simp [accepts, Command.mentions, made, hh]) rfl
  | setTable attributes hh =>
    exact of_accepts _ (by simp [accepts, Command.mentions, made, hh]) rfl
  | setPort side name he h =>
    refine of_accepts _ (by simp [accepts, Command.mentions, made, he, h]; rfl) ?_
    simp only [writes, h]
    rfl

theorem step_of_accepts (h : w.accepts c = true) :
    (w.step c).1 = (w.writeAll (w.writes c)).advance c.series := by
  rw [step_eq, changes, counted, if_pos h, if_pos h]

theorem step_of_not_accepts (h : ¬ w.accepts c = true) : (w.step c).1 = w := by
  rw [step_eq, changes, counted, if_neg h, if_neg h]
  rfl

/-- A cell that a command does not write stays as it is. -/
theorem content_step_of_notMem (hk : ∀ x ∈ w.changes c, x.cell ≠ k) :
    (w.step c).1.content k = w.content k := by
  rw [step_eq, content_advance, content_writeAll_of_notMem hk]

/-- A cell holds after a command what the command wrote, or what it held before. -/
theorem content_step {P : (k : Cell) → k.Content → Prop} (hx : ∀ x ∈ w.changes c, P x.cell x.value)
    (hw : (∀ x ∈ w.changes c, x.cell ≠ k) → P k (w.content k)) :
    P k ((w.step c).1.content k) := by
  rw [step_eq, content_advance]
  exact content_writeAll hx hw

theorem count_step (t : Series) :
    (w.step c).1.count t = if w.counted c = some t then w.count t + 1 else w.count t := by
  rw [step_eq, count_advance, count_writeAll]

theorem mem_changes_iff {x : Write} :
    x ∈ w.changes c ↔ w.accepts c = true ∧ x ∈ w.writes c := by
  unfold changes
  by_cases h : w.accepts c = true <;> simp [h]

end Workspace

end DotBuilder
