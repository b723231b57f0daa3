import DotBuilder.Proofs.Accepted
import DotBuilder.Proofs.Cells.Owned

/-!
# What commands store in attribute sets

A command that stores attributes in a set of a graph, a node or an edge stores them in one set
alone, whichever handle leads to it, and notes down the names that the set does not take.

* `Notes` : a command stores attributes in a set and notes a warning;
* `Owned.exists_stored` : every command stores some attributes in a set, none perhaps, and notes
  what their check finds.
-/

namespace DotBuilder

/-- The thing in whose set a command stores attributes. -/
def Command.receiver (c : Command) (r : Reply) : Option Object :=
  match c with
  | assign o _ => some o
  | assignDefaults g scope _ => some (.set (.defaults g scope))
  | addNode .. | addHtmlNode .. | addEdge .. =>
    match r.result with
    | .ok outcome => outcome.object
    | .error _ => none
  | _ => none

namespace Workspace

variable {w : Workspace} {c : Command} {s : SetId} {x : Warning}

/-- A command stores attributes in a set, and notes a warning. -/
def Notes (w : Workspace) (c : Command) (s : SetId) (x : Warning) : Prop :=
  (∃ o, c.receiver (w.step c).2 = some o ∧ (w.step c).1.setOf o = s) ∧ .warned x ∈ (w.step c).2.log

/-! ## Replies -/

theorem reply_addNode {g : GraphId} (name : String) {given : Attrs} {found : Findings}
    (hg : w.madeGraph g = true) (h : (w.blankNodeSet g false).check given = .ok found) :
    (Command.addNode g name given).receiver (w.step (.addNode g name given)).2 =
        some (.node (.plain ⟨.graph g (w.graph g).plainMade⟩)) ∧
      (w.step (.addNode g name given)).2.log = LogEntry.ofFindings found := by
  rw [step_addNode hg h]
  exact ⟨rfl, rfl⟩

theorem reply_addHtmlNode {g : GraphId} (name : String) {given : Attrs} {found : Findings}
    (hg : w.madeGraph g = true) (h : (w.blankNodeSet g true).check given = .ok found) :
    (Command.addHtmlNode g name given).receiver (w.step (.addHtmlNode g name given)).2 =
        some (.node (.html ⟨.graph g (w.graph g).htmlMade⟩)) ∧
      (w.step (.addHtmlNode g name given)).2.log = LogEntry.ofFindings found := by
  rw [step_addHtmlNode hg h]
  exact ⟨rfl, rfl⟩

theorem reply_addEdge {g : GraphId} {source target : NodeRef} {given : Attrs} {found : Findings}
    (hm : (Command.addEdge g source target given).mentions.all w.made = true)
    (h : (w.blankEdgeSet g).check given = .ok found) :
    (Command.addEdge g source target given).receiver
        (w.step (.addEdge g source target given)).2 =
          some (.edge ⟨.graph g (w.graph g).edgesMade⟩) ∧
      (w.step (.addEdge g source target given)).2.log = LogEntry.ofFindings found := by
  rw [step_addEdge hm h]
  exact ⟨rfl, rfl⟩

/-! ## Notes -/

theorem not_notes_of_receiver (h : c.receiver (w.step c).2 = none) : ¬ w.Notes c s x := by
  rintro ⟨⟨o, ho, -⟩, -⟩
  rw [h] at ho
  cases ho

theorem not_notes_of_log (h : (w.step c).2.log = []) : ¬ w.Notes c s x := by
  rintro ⟨-, hlog⟩
  rw [h] at hlog
  cases hlog

theorem notes_iff {o : Object} {found : Findings} (hr : c.receiver (w.step c).2 = some o)
    (hl : (w.step c).2.log = LogEntry.ofFindings found) :
    w.Notes c s x ↔ (w.step c).1.setOf o = s ∧ x ∈ found.warnings := by
  have hmem : .warned x ∈ LogEntry.ofFindings found ↔ x ∈ found.warnings := by
    simp [LogEntry.ofFindings]
  rw [Notes, hr, hl, hmem]
  simp only [Option.some.injEq, exists_eq_left']

/-! ## What a command stores -/

/-- A command stores the attributes in a set, and notes what their check finds. -/
structure Stores (w : Workspace) (c : Command) (s : SetId) (r : Context) (given : Attrs) :
    Prop where
  entries : ((w.step c).1.attrSet s).entries = (w.attrSet s).entries.insertAll given
  notes (x : Warning) : w.Notes c s x ↔ x ∈ (attrsFindings r given).warnings
  strict : ((w.step c).1.attrSet s).strict = true → unaccepted r given = []

variable {r : Context}

theorem Stores.nothing (he : ((w.step c).1.attrSet s).entries = (w.attrSet s).entries)
    (hn : ∀ x, ¬ w.Notes c s x) : w.Stores c s r .empty where
  entries := he
  notes x := by
    constructor
    · exact fun h => absurd h (hn x)
    · intro h
      cases h
  strict _ := rfl

/-- A command whose check of attributes passes stores them in the set of its receiver. -/
theorem Stores.of_check {o : Object} {own : AttrSet} {given : Attrs} {found : Findings}
    (hr : c.receiver (w.step c).2 = some o) (hl : (w.step c).2.log = LogEntry.ofFindings found)
    (hcheck : own.check given = .ok found)
    (hset : (w.step c).1.setOf o = s → (w.step c).1.attrSet s = own.store given ∧
      own.entries = (w.attrSet s).entries ∧ own.context = r)
    (hother : (w.step c).1.setOf o ≠ s →
      ((w.step c).1.attrSet s).entries = (w.attrSet s).entries) :
    ∃ given, w.Stores c s r given := by
  by_cases hs : (w.step c).1.setOf o = s
  · obtain ⟨hstore, hentries, rfl⟩ := hset hs
    refine ⟨given, ?_, fun x => ?_, fun hstrict => ?_⟩
    · rw [hstore, ← hentries]
      rfl
    · rw [notes_iff hr hl, AttrSet.eq_of_check_eq_ok hcheck]
      simp only [hs, true_and]
    · rw [hstore] at hstrict
      exact AttrSet.unaccepted_of_check_eq_ok hcheck hstrict
  · refine ⟨.empty, .nothing (hother hs) fun x hx => ?_⟩
    exact hs ((notes_iff hr hl).1 hx).1

namespace Owned

/-- A node that resolving makes has no attributes. -/
theorem entries_resolve (hw : Owned w) (g : GraphId) (ref : NodeRef) (s : SetId) :
    ((w.resolve g ref).1.attrSet s).entries = (w.attrSet s).entries := by
  cases ref with
  | given n => rfl
  | named name =>
    unfold Workspace.resolve
    dsimp only
    cases (w.graph g).node? name with
    | some n => rfl
    | none =>
      dsimp only
      rw [attrSet_placePlain]
      by_cases hs : s = .node (.plain ⟨.graph g (w.graph g).plainMade⟩)
      · have hnot : w.madeSet s = false := by
          rw [hs]
          simp [madeSet, madeNode]
        rw [if_pos hs, hw.entries_eq hnot]
        rfl
      · rw [if_neg hs]

/-- A set that comes to be without attributes had none before. -/
theorem entries_set (hw : Owned w) {own : AttrSet} {t : SetId} (ho : own.entries = .empty)
    (ht : w.madeSet t = false) (s : SetId) :
    ((w.sets.set t own).get s).entries = (w.attrSet s).entries := by
  rw [Registry.get_set]
  by_cases hs : s = t
  · rw [if_pos hs, ho, hs, hw.entries_eq ht]
  · rw [if_neg hs]
    rfl

theorem entries_newGraph (hw : Owned w) (kind : Kind) (name : String) (strict : Bool) (s : SetId) :
    ((w.newGraph kind name strict).1.attrSet s).entries = (w.attrSet s).entries := by
  have hnot : ∀ scope, w.madeSet (.defaults ⟨w.graphsMade⟩ scope) = false := by
    intro scope
    simp [madeSet, madeGraph]
  by_cases hs : ∃ scope, s = .defaults ⟨w.graphsMade⟩ scope
  · obtain ⟨scope, rfl⟩ := hs
    rw [hw.entries_eq (hnot scope)]
    cases scope <;> simp [newGraph, attrSet, Registry.get_set, blankDefaults, AttrSet.blank]
  · have hne : ∀ scope, s ≠ .defaults ⟨w.graphsMade⟩ scope := fun scope h => hs ⟨scope, h⟩
    simp only [newGraph, attrSet, Registry.get_set_of_ne _ _ (hne _)]

/-- A given set takes its label in another way from then on, and has the entries that it had. -/
theorem entries_newHtml (hw : Owned w) (name : String) (attributes : Option SetId) (s : SetId) :
    ((w.newHtml name attributes).1.attrSet s).entries = (w.attrSet s).entries := by
  have hnot : w.madeSet (.node (.html ⟨.loose w.htmlMade⟩)) = false := by
    simp [madeSet, madeNode]
  rw [← hw.entries_set (show (AttrSet.blank .node true false).entries = .empty from rfl) hnot s]
  simp only [newHtml, attrSet, Registry.get_modify]
  split
  · rename_i hs
    rw [hs]
  · rfl

/-! ## All commands -/

theorem exists_stored_addNode (hw : Owned w) {g : GraphId} {name : String} {given : Attrs}
    {found : Findings} (hg : w.madeGraph g = true)
    (h : (w.blankNodeSet g false).check given = .ok found)
    (hw' : (w.step (.addNode g name given)).1 =
      (w.placePlain g name ((w.blankNodeSet g false).store given)).1) (hr : s.role = some r) :
    ∃ stored, w.Stores (.addNode g name given) s r stored := by
  obtain ⟨hrec, hlog⟩ := reply_addNode name hg h
  have hnot : w.madeSet (.node (.plain ⟨.graph g (w.graph g).plainMade⟩)) = false := by
    simp [madeSet, madeNode]
  have hset : (w.step (.addNode g name given)).1.setOf (.node (.plain ⟨.graph g
      (w.graph g).plainMade⟩)) = .node (.plain ⟨.graph g (w.graph g).plainMade⟩) := by
    rw [hw']
    simp [setOf, node, placePlain, Registry.get_set_self]
  refine Stores.of_check hrec hlog h (fun hs => ?_) fun hs => ?_
  · rw [hset] at hs
    subst hs
    rw [hw', attrSet_placePlain, if_pos rfl, hw.entries_eq hnot]
    exact ⟨rfl, rfl, Option.some.inj hr⟩
  · rw [hset] at hs
    rw [hw', attrSet_placePlain, if_neg fun h => hs h.symm]

theorem exists_stored_addHtmlNode (hw : Owned w) {g : GraphId} {name : String} {given : Attrs}
    {found : Findings} (hg : w.madeGraph g = true)
    (h : (w.blankNodeSet g true).check given = .ok found)
    (hw' : (w.step (.addHtmlNode g name given)).1 =
      (w.placeHtml g name ((w.blankNodeSet g true).store given)).1) (hr : s.role = some r) :
    ∃ stored, w.Stores (.addHtmlNode g name given) s r stored := by
  obtain ⟨hrec, hlog⟩ := reply_addHtmlNode name hg h
  have hnot : w.madeSet (.node (.html ⟨.graph g (w.graph g).htmlMade⟩)) = false := by
    simp [madeSet, madeNode]
  have hset : (w.step (.addHtmlNode g name given)).1.setOf (.node (.html ⟨.graph g
      (w.graph g).htmlMade⟩)) = .node (.html ⟨.graph g (w.graph g).htmlMade⟩) := by
    rw [hw']
    simp [setOf, node, placeHtml, Registry.get_set_self]
  refine Stores.of_check hrec hlog h (fun hs => ?_) fun hs => ?_
  · rw [hset] at hs
    subst hs
    rw [hw', attrSet_placeHtml, if_pos rfl, hw.entries_eq hnot]
    exact ⟨rfl, rfl, Option.some.inj hr⟩
  · rw [hset] at hs
    rw [hw', attrSet_placeHtml, if_neg fun h => hs h.symm]

theorem exists_stored_addEdge (hw : Owned w) {g : GraphId} {source target : NodeRef}
    {given : Attrs} {found : Findings}
    (hm : (Command.addEdge g source target given).mentions.all w.made = true)
    (h : (w.blankEdgeSet g).check given = .ok found)
    (hw' : (w.step (.addEdge g source target given)).1 =
      w.connected g source target ((w.blankEdgeSet g).store given)) (hr : s.role = some r) :
    ∃ stored, w.Stores (.addEdge g source target given) s r stored := by
  obtain ⟨hrec, hlog⟩ := reply_addEdge hm h
  have hg : w.madeGraph g = true := List.all_eq_true.1 hm (.graph g) (List.mem_cons_self ..)
  have hnot : w.madeSet (.edge ⟨.graph g (w.graph g).edgesMade⟩) = false := by
    simp [madeSet, madeEdge]
  refine Stores.of_check hrec hlog h (fun hs => ?_) fun hs => ?_
  · have hs' : s = .edge ⟨.graph g (w.graph g).edgesMade⟩ := hs.symm
    rw [hw', connected_eq, attrSet_placeEdge, edgesMade_resolve, edgesMade_resolve, if_pos hs']
    subst hs'
    rw [hw.entries_eq hnot]
    exact ⟨rfl, rfl, Option.some.inj hr⟩
  · have hs' : s ≠ .edge ⟨.graph g (w.graph g).edgesMade⟩ := fun h => hs h.symm
    rw [hw', connected_eq, attrSet_placeEdge, edgesMade_resolve, edgesMade_resolve, if_neg hs',
      (hw.resolve hg source).entries_resolve, hw.entries_resolve]

theorem exists_stored_assign (hw : Owned w) {o : Object} {given : Attrs} {found : Findings}
    (ho : w.made o = true) (h : (w.attrSet (w.setOf o)).check given = .ok found)
    (hw' : (w.step (.assign o given)).1 = w.modifySet (w.setOf o) fun r => r.store given)
    (hr : s.role = some r) : ∃ stored, w.Stores (.assign o given) s r stored := by
  have hset : (w.step (.assign o given)).1.setOf o = w.setOf o := by
    rw [hw']
    cases o <;> rfl
  have hlog : (w.step (.assign o given)).2.log = LogEntry.ofFindings found := by
    rw [step_assign ho h]
  refine Stores.of_check rfl hlog h (fun hs => ?_) fun hs => ?_
  · rw [hset] at hs
    subst hs
    rw [hw', attrSet_modifySet, if_pos rfl]
    exact ⟨rfl, rfl, hw.context_eq (hw.madeSet_setOf ho) hr⟩
  · rw [hset] at hs
    rw [hw', attrSet_modifySet, if_neg fun h => hs h.symm]

theorem exists_stored_assignDefaults (hw : Owned w) {g : GraphId} {scope : Scope} {given : Attrs}
    {found : Findings} (hg : w.madeGraph g = true)
    (h : (w.attrSet (.defaults g scope)).check given = .ok found)
    (hw' : (w.step (.assignDefaults g scope given)).1 =
      w.modifySet (.defaults g scope) fun r => r.store given) (hr : s.role = some r) :
    ∃ stored, w.Stores (.assignDefaults g scope given) s r stored := by
  have hlog : (w.step (.assignDefaults g scope given)).2.log = LogEntry.ofFindings found := by
    rw [step_assignDefaults hg h]
  refine Stores.of_check rfl hlog h (fun hs => ?_) fun hs => ?_
  · have hs' : s = .defaults g scope := hs.symm
    subst hs'
    rw [hw', attrSet_modifySet, if_pos rfl]
    exact ⟨rfl, rfl, hw.context_eq (s := .defaults g scope) hg hr⟩
  · have hs' : s ≠ .defaults g scope := fun h => hs h.symm
    rw [hw', attrSet_modifySet, if_neg hs']

/-- **Every command stores some attributes in a set, if only none.** -/
theorem exists_stored (hw : Owned w) (c : Command) (hr : s.role = some r) :
    ∃ given, w.Stores c s r given := by
  have he : w.Effect c (w.step c).1 := w.step_effect c
  have nothing : (∀ q, c.receiver q = none) →
      ((w.step c).1.attrSet s).entries = (w.attrSet s).entries →
        ∃ given, w.Stores c s r given := fun hnone hentries =>
    ⟨.empty, .nothing hentries fun _ => not_notes_of_receiver (hnone _)⟩
  generalize hw' : (w.step c).1 = w' at he nothing
  cases he with
  | refused h =>
    have hstep := step_of_refused h
    refine ⟨.empty, .nothing ?_ fun x => not_notes_of_log ?_⟩
    · rw [hstep]
    · rw [hstep]
  | asked h => exact nothing (fun q => by cases c <;> first | rfl | cases h) rfl
  | addNode name hg h => exact hw.exists_stored_addNode hg h hw' hr
  | addHtmlNode name hg h => exact hw.exists_stored_addHtmlNode hg h hw' hr
  | addEdge hg hs ht h =>
    exact hw.exists_stored_addEdge (mentions_addEdge hg hs ht) h hw' hr
  | assign ho h => exact hw.exists_stored_assign ho h hw' hr
  | assignDefaults hg h => exact hw.exists_stored_assignDefaults hg h hw' hr
  | newGraph kind name strict =>
    exact nothing (fun _ => rfl) (hw.entries_newGraph kind name strict s)
  | newHtmlNode name attributes =>
    exact nothing (fun _ => rfl) (hw.entries_newHtml name attributes s)
  | newSet html strict entries =>
    have hs : s ≠ .loose w.setsMade := by
      rintro rfl
      cases hr
    refine nothing (fun _ => rfl) ?_
    simp only [newSet, attrSet, Registry.get_set_of_ne _ _ hs]
  | newNode | newEdge =>
    refine nothing (fun _ => rfl) (hw.entries_set rfl ?_ s)
    simp [madeSet, madeNode, madeEdge]
  | @setStrict t strict =>
    refine nothing (fun _ => rfl) ?_
    rw [setStrict, attrSet_modifySet]
    by_cases hs : s = t <;> simp [hs]
  | attach parent child => exact nothing (fun _ => rfl) (by rw [attrSet_attached])
  | _ => exact nothing (fun _ => rfl) rfl

end Owned

end Workspace

end DotBuilder
