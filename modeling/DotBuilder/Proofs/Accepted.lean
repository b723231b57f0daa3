import DotBuilder.Proofs.References.Listing

/-!
# Replies of commands

A command that comes with attributes looks at these first, and at nothing else that could be a
reason to refuse it.  So its reply is known from the check of the attributes.  Removing and finding
nodes is never refused.

* `AttrSet.check_eq_ok_iff`, `AttrSet.check_eq_error_iff` : which attributes a set takes, and which
  name is the reason if it does not;
* `mem_unaccepted_iff`, `unaccepted_eq_nil_iff` : the names that a context does not take;
* `step_addNode`, `step_addHtmlNode`, `step_addEdge`, `step_assign`, `step_assignDefaults` : what is
  done and replied if they are taken;
* `step_addEdge_of_error`, `step_assign_of_error`, `step_assignDefaults_of_error` : the refusal;
* `step_removeNode`, `step_findNode` : what these do and reply.
-/

namespace DotBuilder

/-! ## The check of attributes -/

namespace AttrSet

variable {r : AttrSet} {given : Attrs} {found : Findings}

/-- A strict set refuses a map for the first name that it does not take. -/
theorem check_eq_error_iff {e : Error} : r.check given = .error e ↔
    r.strict = true ∧ ∃ name rest, unaccepted r.context given = name :: rest ∧
      e = .invalidAttribute name r.context := by
  unfold check
  cases r.strict with
  | false => simp
  | true => cases unaccepted r.context given <;> simp [eq_comm]

/-- Other maps are reported on, name by name. -/
theorem check_eq_ok_iff : r.check given = .ok found ↔
    (r.strict = true → unaccepted r.context given = []) ∧
      found = attrsFindings r.context given := by
  unfold check
  cases r.strict with
  | false => simp [eq_comm]
  | true => cases unaccepted r.context given <;> simp [eq_comm]

/-- Attributes that pass a check are warned of as the check of their names says. -/
theorem eq_of_check_eq_ok (h : r.check given = .ok found) :
    found = attrsFindings r.context given :=
  (check_eq_ok_iff.1 h).2

/-- A strict set passes only names that it takes. -/
theorem unaccepted_of_check_eq_ok (h : r.check given = .ok found) (hs : r.strict = true) :
    unaccepted r.context given = [] :=
  (check_eq_ok_iff.1 h).1 hs

end AttrSet

theorem mem_unaccepted_iff {r : Context} {m : Attrs} {name : String} :
    name ∈ unaccepted r m ↔ name ∈ m.keys ∧ accepts r name = false := by
  unfold unaccepted
  rw [List.mem_filter, Bool.not_eq_true']

theorem unaccepted_eq_nil_iff {r : Context} {m : Attrs} :
    unaccepted r m = [] ↔ ∀ name ∈ m.keys, accepts r name = true := by
  simp [unaccepted, List.filter_eq_nil_iff]

namespace Workspace

variable {w : Workspace} {g : GraphId} {name : String} {given : Attrs} {found : Findings}
  {e : Error}

/-! ## Adding nodes -/

theorem step_addNode (hg : w.madeGraph g = true)
    (h : (w.blankNodeSet g false).check given = .ok found) :
    let p : PlainId := ⟨.graph g (w.graph g).plainMade⟩
    let v := (w.placePlain g name ((w.blankNodeSet g false).store given)).1
    w.step (.addNode g name given) =
      (v, ⟨.ok (.ofObject (.text (v.nodeText (.plain p))) (.node (.plain p))),
        LogEntry.ofFindings found⟩) := by
  intro p v
  have hm : (Command.addNode g name given).mentions.all w.made = true := by
    simpa [Command.mentions, made] using hg
  have hex : Action.execute (.addNode g name given) ⟨w, []⟩ =
      .ok (.ofObject (.text (v.nodeText (.plain p))) (.node (.plain p)))
        ⟨v, LogEntry.ofFindings found⟩ := by
    simp only [Action.execute, Action.addNode, Action.bind_eq_ok_iff, Action.fill_eq_ok_iff,
      Action.read_bind]
    exact ⟨_, _, ⟨_, _, ⟨found, h, rfl, rfl⟩, rfl⟩, rfl⟩
  exact step_of_execute hm hex

theorem step_addHtmlNode (hg : w.madeGraph g = true)
    (h : (w.blankNodeSet g true).check given = .ok found) :
    let p : HtmlId := ⟨.graph g (w.graph g).htmlMade⟩
    let v := (w.placeHtml g name ((w.blankNodeSet g true).store given)).1
    w.step (.addHtmlNode g name given) =
      (v, ⟨.ok (.ofObject (.text (v.nodeText (.html p))) (.node (.html p))),
        LogEntry.ofFindings found⟩) := by
  intro p v
  have hm : (Command.addHtmlNode g name given).mentions.all w.made = true := by
    simpa [Command.mentions, made] using hg
  have hex : Action.execute (.addHtmlNode g name given) ⟨w, []⟩ =
      .ok (.ofObject (.text (v.nodeText (.html p))) (.node (.html p)))
        ⟨v, LogEntry.ofFindings found⟩ := by
    simp only [Action.execute, Action.addHtmlNode, Action.bind_eq_ok_iff, Action.fill_eq_ok_iff,
      Action.read_bind]
    exact ⟨_, _, ⟨_, _, ⟨found, h, rfl, rfl⟩, rfl⟩, rfl⟩
  exact step_of_execute hm hex

/-! ## Removing and finding nodes -/

theorem step_removeNode (hg : w.madeGraph g = true) (x : String) (force : Bool) :
    let v := w.removeNode g x force
    w.step (.removeNode g x force) =
      (v, ⟨.ok (.ofAnswer (.counts (v.counts g).1 (v.counts g).2)), []⟩) := by
  have hm : (Command.removeNode g x force).mentions.all w.made = true := by
    simpa [Command.mentions, made] using hg
  exact step_of_execute hm rfl

section Edges

variable {source target : NodeRef}

theorem edgesMade_resolve (w : Workspace) (g : GraphId) (r : NodeRef) :
    ((w.resolve g r).1.graph g).edgesMade = (w.graph g).edgesMade := by
  cases r with
  | given n => rfl
  | named name =>
    rcases w.resolve_named g name with ⟨n, -, he⟩ | ⟨attributes, -, he⟩
    · rw [he]
    · rw [he, graph_placePlain, if_pos rfl]

theorem mentions_addEdge (hg : w.madeGraph g = true) (hs : source.mentions.all w.made = true)
    (ht : target.mentions.all w.made = true) :
    (Command.addEdge g source target given).mentions.all w.made = true := by
  simp [Command.mentions, made, hg, List.all_append, hs, ht]

/-- The ends are resolved before the edge is made, which does not change its number. -/
theorem step_addEdge (hm : (Command.addEdge g source target given).mentions.all w.made = true)
    (h : (w.blankEdgeSet g).check given = .ok found) :
    let k : EdgeId := ⟨.graph g (w.graph g).edgesMade⟩
    let v := w.connected g source target ((w.blankEdgeSet g).store given)
    w.step (.addEdge g source target given) =
      (v, ⟨.ok (.ofObject (.edgeAdded (v.edgeText k) (v.counts g).1 (v.counts g).2) (.edge k)),
        LogEntry.ofFindings found⟩) := by
  intro k v
  have hk : k = ⟨.graph g (((w.resolve g source).1.resolve g target).1.graph g).edgesMade⟩ := by
    rw [edgesMade_resolve, edgesMade_resolve]
  have hex : Action.execute (.addEdge g source target given) ⟨w, []⟩ =
      .ok (.ofObject (.edgeAdded (v.edgeText k) (v.counts g).1 (v.counts g).2) (.edge k))
        ⟨v, LogEntry.ofFindings found⟩ := by
    rw [hk]
    simp only [Action.execute, Action.addEdge, Action.bind_eq_ok_iff, Action.fill_eq_ok_iff,
      Action.read_bind]
    exact ⟨_, _, ⟨_, _, ⟨found, h, rfl, rfl⟩, _, _, rfl, _, _, rfl, rfl⟩, rfl⟩
  exact step_of_execute hm hex

theorem step_addEdge_of_error
    (hm : (Command.addEdge g source target given).mentions.all w.made = true)
    (h : (w.blankEdgeSet g).check given = .error e) :
    w.step (.addEdge g source target given) = (w, ⟨.error e, []⟩) := by
  have hex : Action.execute (.addEdge g source target given) ⟨w, []⟩ = .error e ⟨w, []⟩ := by
    simp only [Action.execute, Action.addEdge, Action.bind_eq_error_iff, Action.read_bind]
    exact .inl (.inl (Action.fill_of_check_eq_error h))
  exact step_of_refused (result_of_execute hm hex)

end Edges

/-! ## Storing attributes -/

section Sets

variable {o : Object} {scope : Scope}

theorem mentions_assign (ho : w.made o = true) :
    (Command.assign o given).mentions.all w.made = true := by
  simpa [Command.mentions] using ho

theorem mentions_assignDefaults (hg : w.madeGraph g = true) :
    (Command.assignDefaults g scope given).mentions.all w.made = true := by
  simpa [Command.mentions, made] using hg

theorem step_assign (ho : w.made o = true)
    (h : (w.attrSet (w.setOf o)).check given = .ok found) :
    w.step (.assign o given) = (w.modifySet (w.setOf o) fun r => r.store given,
      ⟨.ok (.ofAnswer (.findings found)), LogEntry.ofFindings found⟩) := by
  have hex : Action.execute (.assign o given) ⟨w, []⟩ = .ok (.ofAnswer (.findings found))
      ⟨w.modifySet (w.setOf o) fun r => r.store given, LogEntry.ofFindings found⟩ := by
    simp only [Action.execute, Action.read_bind, Action.bind_eq_ok_iff, Action.assign_eq_ok_iff]
    exact ⟨found, _, ⟨h, rfl⟩, rfl⟩
  exact step_of_execute (mentions_assign ho) hex

theorem step_assign_of_error (ho : w.made o = true)
    (h : (w.attrSet (w.setOf o)).check given = .error e) :
    w.step (.assign o given) = (w, ⟨.error e, []⟩) := by
  have hex : Action.execute (.assign o given) ⟨w, []⟩ = .error e ⟨w, []⟩ := by
    simp only [Action.execute, Action.read_bind]
    exact Action.bind_eq_error_iff.2 (.inl (Action.assign_of_check_eq_error h))
  exact step_of_refused (result_of_execute (mentions_assign ho) hex)

theorem step_assignDefaults (hg : w.madeGraph g = true)
    (h : (w.attrSet (.defaults g scope)).check given = .ok found) :
    w.step (.assignDefaults g scope given) =
      (w.modifySet (.defaults g scope) fun r => r.store given,
        ⟨.ok (.ofAnswer (.findings found)), LogEntry.ofFindings found⟩) := by
  have hex : Action.execute (.assignDefaults g scope given) ⟨w, []⟩ =
      .ok (.ofAnswer (.findings found))
        ⟨w.modifySet (.defaults g scope) fun r => r.store given, LogEntry.ofFindings found⟩ := by
    simp only [Action.execute, Action.bind_eq_ok_iff, Action.assign_eq_ok_iff]
    exact ⟨found, _, ⟨h, rfl⟩, rfl⟩
  exact step_of_execute (mentions_assignDefaults hg) hex

theorem step_assignDefaults_of_error (hg : w.madeGraph g = true)
    (h : (w.attrSet (.defaults g scope)).check given = .error e) :
    w.step (.assignDefaults g scope given) = (w, ⟨.error e, []⟩) := by
  have hex : Action.execute (.assignDefaults g scope given) ⟨w, []⟩ = .error e ⟨w, []⟩ :=
    Action.bind_eq_error_iff.2 (.inl (Action.assign_of_check_eq_error h))
  exact step_of_refused (result_of_execute (mentions_assignDefaults hg) hex)

end Sets

end Workspace

end DotBuilder
