import DotBuilder.Proofs.Refusal

/-!
# What commands can do

`Workspace.Effect` says once what a command can do to a workspace, with everything that is known of
a command that was not refused.  What is true of every workspace that commands can lead to is proved
from it, one case for each way to change a workspace.

* `Workspace.step_effect` : a step has one of these effects;
* `Workspace.run_keeps`, `Workspace.run_invariant` : what every step keeps a whole run keeps, where
  the steps may be bound to a rule on what is tried in which workspace;
* `Workspace.gather`, `Workspace.eq_getLast_gather` : what the commands of a run give, and a value
  that is set to what they give.
-/

namespace DotBuilder

/-- Whether a command only asks for something. -/
def Command.asks : Command → Bool
  | findNode .. | findEdge .. | showEntries _ | showDefaults .. | showText _ | showTextWith ..
  | describe _ | lint _ | save .. | showGraph _ | showEdge _ | showSet _ | same .. | showTable _
  | showRows _ | endNode .. => true
  | _ => false

/-- A command that only asks leaves the workspace as it is. -/
theorem Action.workspace_of_asks {c : Command} {s t : State} {o : Outcome} (hc : c.asks = true)
    (h : execute c s = .ok o t) : t.workspace = s.workspace := by
  cases c with
  | showEntries | showDefaults | showTextWith | describe | showGraph | showEdge | same
  | showTable | showRows | showSet | endNode =>
    simp only [execute, read_bind, answer_apply, present_apply] at h
    cases h
    rfl
  | findNode g name =>
    simp only [execute, read_bind] at h
    rcases hn : (s.workspace.graph g).node? name with _ | (p | q) <;> rw [hn] at h <;> cases h <;>
      rfl
  | findEdge | showText | lint =>
    simp only [execute, require_bind_eq_ok_iff, answer_apply, present_apply] at h
    obtain ⟨_, -, ⟨⟩⟩ := h
    rfl
  | save g stem directory =>
    simp only [execute, save, require_bind_eq_ok_iff, note_bind, pure_apply] at h
    obtain ⟨_, -, _, -, ⟨⟩⟩ := h
    rfl
  | _ => cases hc

namespace Workspace

/-! ## Changed workspaces -/

/-- The workspace in which a graph has become a cluster of another. -/
def attached (w : Workspace) (parent child : GraphId) : Workspace :=
  ((w.detachOther parent child (w.graph child).name).listCluster parent child).setParent child
    (some parent)

/-- Only the records of graphs change. -/
theorem attached_eq_with_graphs (w : Workspace) (parent child : GraphId) :
    w.attached parent child = { w with graphs := (w.attached parent child).graphs } := by
  unfold attached detachOther
  split
  · split <;> rfl
  · rfl

/-- The workspace in which a graph has got another edge. -/
def connected (w : Workspace) (g : GraphId) (source target : NodeRef) (attributes : AttrSet) :
    Workspace :=
  let (w₁, s) := w.resolve g source
  let (w₂, t) := w₁.resolve g target
  (w₂.placeEdge g s t attributes).1

/-- The workspace in which one end of an edge has another port. -/
def rerouted (w : Workspace) (e : EdgeId) (side : Side) (port : Port) : Workspace :=
  w.modifyPort e side fun _ => port

theorem mayAttach_eq_ok_iff {w : Workspace} {parent child : GraphId} :
    w.mayAttach parent child = .ok () ↔ w.attachError? parent child = none := by
  unfold mayAttach
  cases w.attachError? parent child <;> simp

theorem modifyPort_modifyPort (w : Workspace) (e : EdgeId) (side : Side) (f h : Port → Port) :
    (w.modifyPort e side f).modifyPort e side h = w.modifyPort e side fun p => h (f p) := by
  unfold modifyPort
  rw [Registry.modify_modify]
  cases side <;> rfl

/-! ## Effects -/

/-- What a command can do to a workspace. -/
inductive Effect (w : Workspace) : Command → Workspace → Prop where
  /-- The command is refused. -/
  | refused {c : Command} {e : Error} (h : (w.step c).2.result = .error e) : Effect w c w
  /-- The command asks for something. -/
  | asked {c : Command} (h : c.asks = true) : Effect w c w
  | newGraph (kind : Kind) (name : String) (strict : Bool) :
    Effect w (.newGraph kind name strict) (w.newGraph kind name strict).1
  | newSet {text : String} {context : Context} (html strict : Bool) (entries : Attrs)
    (h : Context.ofName text = .ok context) :
    Effect w (.newSet text html strict entries) (w.newSet context html strict entries).1
  | newNode (name : String) (attributes : Option SetId) (hs : ∀ s ∈ attributes, w.madeSet s) :
    Effect w (.newNode name attributes) (w.newPlain name attributes).1
  | newHtmlNode (name : String) (attributes : Option SetId) (hs : ∀ s ∈ attributes, w.madeSet s) :
    Effect w (.newHtmlNode name attributes) (w.newHtml name attributes).1
  | newEdge {g : GraphId} {source target : NodeId} (hg : w.madeGraph g) (hs : w.madeNode source)
    (ht : w.madeNode target) :
    Effect w (.newEdge g source target) (w.newEdge g source target).1
  | addNode {g : GraphId} (name : String) {given : Attrs} {found : Findings} (hg : w.madeGraph g)
    (h : (w.blankNodeSet g false).check given = .ok found) :
    Effect w (.addNode g name given)
      (w.placePlain g name ((w.blankNodeSet g false).store given)).1
  | addHtmlNode {g : GraphId} (name : String) {given : Attrs} {found : Findings}
    (hg : w.madeGraph g) (h : (w.blankNodeSet g true).check given = .ok found) :
    Effect w (.addHtmlNode g name given)
      (w.placeHtml g name ((w.blankNodeSet g true).store given)).1
  | removeNode {g : GraphId} (name : String) (force : Bool) (hg : w.madeGraph g) :
    Effect w (.removeNode g name force) (w.removeNode g name force)
  | addEdge {g : GraphId} {source target : NodeRef} {given : Attrs} {found : Findings}
    (hg : w.madeGraph g) (hs : source.mentions.all w.made) (ht : target.mentions.all w.made)
    (h : (w.blankEdgeSet g).check given = .ok found) :
    Effect w (.addEdge g source target given)
      (w.connected g source target ((w.blankEdgeSet g).store given))
  | attach {parent child : GraphId} (hp : w.madeGraph parent) (hc : w.madeGraph child)
    (h : w.attachError? parent child = none) :
    Effect w (.attach parent child) (w.attached parent child)
  | assign {o : Object} {given : Attrs} {found : Findings} (ho : w.made o)
    (h : (w.attrSet (w.setOf o)).check given = .ok found) :
    Effect w (.assign o given) (w.modifySet (w.setOf o) fun r => r.store given)
  | assignDefaults {g : GraphId} {scope : Scope} {given : Attrs} {found : Findings}
    (hg : w.madeGraph g) (h : (w.attrSet (.defaults g scope)).check given = .ok found) :
    Effect w (.assignDefaults g scope given)
      (w.modifySet (.defaults g scope) fun r => r.store given)
  | renameGraph {g : GraphId} (name : String) (hg : w.madeGraph g) :
    Effect w (.renameGraph g name) (w.renameGraph g name)
  | renameNode {n : NodeId} (name : String) (hn : w.madeNode n) :
    Effect w (.renameNode n name) (w.renameNode n name)
  | setGraphStrict {g : GraphId} (strict : Bool) (hg : w.madeGraph g) :
    Effect w (.setGraphStrict g strict) (w.setGraphStrict g strict)
  | setStrict {s : SetId} (strict : Bool) (hs : w.madeSet s) :
    Effect w (.setStrict s strict) (w.setStrict s strict)
  | addRow {h : HtmlId} (sources : List Html.CellSource) (hh : w.madeNode (.html h)) :
    Effect w (.addRow h sources)
      (w.modifyTable h fun t => t.addRow (sources.map Html.CellSource.cell))
  | setTable {h : HtmlId} (attributes : Html.Attributes) (hh : w.madeNode (.html h)) :
    Effect w (.setTable h (some attributes))
      (w.modifyTable h fun t => t.setAttributes attributes)
  | setPort {e : EdgeId} (side : Side) (name : Option String) {compass : Option String}
    {c : Option Compass} (he : w.madeEdge e) (h : Compass.ofText compass = .ok c) :
    Effect w (.setPort e side name compass) (w.rerouted e side ⟨name, c⟩)

theorem effect_of_execute {w : Workspace} {c : Command} {o : Outcome} {s : Action.State}
    (hm : c.mentions.all w.made = true) (h : Action.execute c ⟨w, []⟩ = .ok o s) :
    w.Effect c s.workspace := by
  cases ha : c.asks with
  | true => rw [Action.workspace_of_asks ha h]; exact .asked ha
  | false =>
    cases c with
    | newGraph kind name strict =>
      simp only [Action.execute, Action.make_bind, Action.present_apply] at h
      cases h
      exact .newGraph kind name strict
    | newSet text html strict entries =>
      simp only [Action.execute, Action.require_bind_eq_ok_iff, Action.make_bind,
        Action.present_apply] at h
      obtain ⟨context, hc, ⟨⟩⟩ := h
      exact .newSet html strict entries hc
    | newNode name attributes =>
      simp only [Action.execute, Action.make_bind, Action.present_apply] at h
      cases h
      exact .newNode name attributes (by simpa [Command.mentions, made] using hm)
    | newHtmlNode name attributes =>
      simp only [Action.execute, Action.make_bind, Action.present_apply] at h
      cases h
      exact .newHtmlNode name attributes (by simpa [Command.mentions, made] using hm)
    | newEdge g source target =>
      simp only [Action.execute, Action.make_bind, Action.present_apply] at h
      cases h
      simp only [Command.mentions, List.all_cons, made, List.all_nil, Bool.and_true,
        Bool.and_eq_true] at hm
      exact .newEdge hm.1 hm.2.1 hm.2.2
    | addNode g name given =>
      simp only [Action.execute, Action.addNode, Action.bind_eq_ok_iff, Action.read_bind,
        Action.fill_eq_ok_iff, Action.present_apply] at h
      obtain ⟨_, _, ⟨_, _, ⟨found, hc, rfl, rfl⟩, ⟨⟩⟩, ⟨⟩⟩ := h
      exact .addNode name (by simpa [Command.mentions, made] using hm) hc
    | addHtmlNode g name given =>
      simp only [Action.execute, Action.addHtmlNode, Action.bind_eq_ok_iff, Action.read_bind,
        Action.fill_eq_ok_iff, Action.present_apply] at h
      obtain ⟨_, _, ⟨_, _, ⟨found, hc, rfl, rfl⟩, ⟨⟩⟩, ⟨⟩⟩ := h
      exact .addHtmlNode name (by simpa [Command.mentions, made] using hm) hc
    | removeNode g name force =>
      simp only [Action.execute, Action.change_bind, Action.answer_apply] at h
      cases h
      exact .removeNode name force (by simpa [Command.mentions, made] using hm)
    | addEdge g source target given =>
      simp only [Action.execute, Action.addEdge, Action.bind_eq_ok_iff, Action.read_bind,
        Action.fill_eq_ok_iff, Action.make_bind, Action.present_apply] at h
      obtain ⟨_, _, ⟨_, _, ⟨found, hc, rfl, rfl⟩, ⟨⟩⟩, ⟨⟩⟩ := h
      simp only [Command.mentions, List.all_cons, List.all_append, made, Bool.and_eq_true] at hm
      exact .addEdge hm.1 hm.2.1 hm.2.2 hc
    | attach parent child =>
      simp only [Action.execute, Action.attach, Action.bind_eq_ok_iff,
        Action.require_eq_ok_iff, Action.change_bind, Action.answer_apply] at h
      obtain ⟨_, _, ⟨_, _, ⟨hc, rfl⟩, ⟨⟩⟩, ⟨⟩⟩ := h
      simp only [Command.mentions, List.all_cons, made, List.all_nil, Bool.and_true,
        Bool.and_eq_true] at hm
      exact .attach hm.1 hm.2 (mayAttach_eq_ok_iff.1 hc)
    | assign o given =>
      simp only [Action.execute, Action.read_bind, Action.bind_eq_ok_iff,
        Action.assign_eq_ok_iff, Action.answer_apply] at h
      obtain ⟨found, _, ⟨hc, rfl⟩, ⟨⟩⟩ := h
      exact .assign (by simpa [Command.mentions] using hm) hc
    | assignDefaults g scope given =>
      simp only [Action.execute, Action.bind_eq_ok_iff, Action.assign_eq_ok_iff,
        Action.answer_apply] at h
      obtain ⟨found, _, ⟨hc, rfl⟩, ⟨⟩⟩ := h
      exact .assignDefaults (by simpa [Command.mentions, made] using hm) hc
    | renameGraph g name =>
      simp only [Action.execute, Action.change_bind, Action.answer_apply] at h
      cases h
      exact .renameGraph name (by simpa [Command.mentions, made] using hm)
    | renameNode n name =>
      simp only [Action.execute, Action.change_bind, Action.answer_apply] at h
      cases h
      exact .renameNode name (by simpa [Command.mentions, made] using hm)
    | setGraphStrict g strict =>
      simp only [Action.execute, Action.change_bind, Action.answer_apply] at h
      cases h
      exact .setGraphStrict strict (by simpa [Command.mentions, made] using hm)
    | setStrict k strict =>
      simp only [Action.execute, Action.change_bind, Action.answer_apply] at h
      cases h
      exact .setStrict strict (by simpa [Command.mentions, made] using hm)
    | addRow k sources =>
      simp only [Action.execute, Action.change_bind, Action.answer_apply] at h
      cases h
      exact .addRow sources (by simpa [Command.mentions, made] using hm)
    | setTable k attributes =>
      simp only [Action.execute, Action.require_bind_eq_ok_iff, Action.change_bind,
        Action.answer_apply] at h
      obtain ⟨given, hg, ⟨⟩⟩ := h
      cases attributes with
      | none => cases hg
      | some =>
        cases hg
        exact .setTable given (by simpa [Command.mentions, made] using hm)
    | setPort e side name compass =>
      simp only [Action.execute, Action.setPort, Action.bind_eq_ok_iff,
        Action.require_eq_ok_iff, Action.change_bind, Action.answer_apply] at h
      obtain ⟨_, _, ⟨c, _, ⟨hc, rfl⟩, ⟨⟩⟩, ⟨⟩⟩ := h
      show w.Effect _ ((w.modifyPort e side _).modifyPort e side _)
      rw [modifyPort_modifyPort]
      exact .setPort side name (by simpa [Command.mentions, made] using hm) hc
    | _ => cases ha

theorem step_effect (w : Workspace) (c : Command) : w.Effect c (w.step c).1 := by
  cases hp : Action.perform c ⟨w, []⟩ with
  | ok o s =>
    have hs : (w.step c).1 = s.workspace := by unfold step; rw [hp]
    unfold Action.perform at hp
    obtain ⟨_, hm, h⟩ := Action.require_bind_eq_ok_iff.1 hp
    rw [hs]
    refine effect_of_execute ?_ h
    by_cases hc : c.mentions.all w.made = true
    · exact hc
    · rw [if_neg hc] at hm; cases hm
  | error e s =>
    have hr : (w.step c).2.result = .error e := by unfold step; rw [hp]
    rw [step_of_refused hr]
    exact .refused hr

/-! ## Runs -/

/-- Every command of a list follows a rule in the workspace that it is tried in. -/
def Obeys (rule : Workspace → Command → Prop) : Workspace → List Command → Prop
  | _, [] => True
  | w, c :: cs => rule w c ∧ Obeys rule (w.step c).1 cs

theorem obeys_append {rule : Workspace → Command → Prop} {w : Workspace} {cs ds : List Command} :
    w.Obeys rule (cs ++ ds) ↔ w.Obeys rule cs ∧ (w.run cs).1.Obeys rule ds := by
  induction cs generalizing w with
  | nil => rw [List.nil_append, Obeys, true_and]; rfl
  | cons c cs ih => exact (and_congr_right fun _ => ih).trans and_assoc.symm

/-- What every step that follows a rule keeps, a run that follows it keeps. -/
theorem run_invariant {rule : Workspace → Command → Prop} {holds : Workspace → Prop}
    (keeps : ∀ w c, holds w → rule w c → holds (w.step c).1) {w : Workspace}
    {cs : List Command} (start : holds w) (h : w.Obeys rule cs) : holds (w.run cs).1 := by
  induction cs generalizing w with
  | nil => exact start
  | cons c cs ih => exact ih (keeps w c start h.1) h.2

/-- What every step keeps, a run keeps. -/
theorem run_keeps {holds : Workspace → Prop} (keeps : ∀ w c, holds w → holds (w.step c).1)
    {w : Workspace} (start : holds w) (cs : List Command) : holds (w.run cs).1 := by
  induction cs generalizing w with
  | nil => exact start
  | cons c cs ih => exact ih (keeps w c start)

section Gather

variable {α : Type} {given : Workspace → Command → Option α}

/-- What the commands of a list give, each in the workspace that it is tried in. -/
def gather (given : Workspace → Command → Option α) : Workspace → List Command → List α
  | _, [] => []
  | w, c :: cs => (given w c).toList ++ gather given (w.step c).1 cs

/-- A value that each step leaves as it is, or sets to what the command gives, is after a run what
was given last. -/
theorem eq_getLast_gather {holds : Workspace → Prop} (value : Workspace → α)
    (keeps : ∀ w c, holds w → holds (w.step c).1)
    (law : ∀ w c, holds w → value (w.step c).1 = (given w c).getD (value w)) {w : Workspace}
    (start : holds w) (cs : List Command) :
    value (w.run cs).1 = (gather given w cs).getLast?.getD (value w) := by
  induction cs generalizing w with
  | nil => rfl
  | cons c cs ih =>
    -- what the first command gives shows if the others give nothing
    have hrest : value ((w.step c).1.run cs).1 =
        (gather given (w.step c).1 cs).getLast?.getD ((given w c).getD (value w)) := by
      rw [ih (keeps w c start), law w c start]
    rw [gather, List.getLast?_append]
    refine hrest.trans ?_
    cases (gather given (w.step c).1 cs).getLast? <;> cases given w c <;> rfl

end Gather

end Workspace

end DotBuilder
