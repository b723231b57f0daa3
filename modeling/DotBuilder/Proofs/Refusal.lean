import DotBuilder.Proofs.Action

/-!
# Refused commands leave no trace

Nothing is taken back when an action is refused, so that a refused command leaves everything as it
was is a matter of the order in which the actions look and change.

* `Action.traceless_perform` : every command looks at all that could be a reason to refuse it before
  its first change and its first note;
* `Workspace.step_of_execute`, `Workspace.result_of_execute` : a step ends as the execution of its
  command does;
* `Workspace.step_of_refused` : a refused command leaves the workspace as it was and notes nothing;
* `Workspace.run_without_refused` : of a list of commands the refused ones can be left out, and all
  others get the same replies.
-/

namespace DotBuilder

namespace Action

/-! ## The actions of the library -/

theorem traceless_examine (r : AttrSet) (given : Attrs) : Traceless (examine r given) :=
  (traceless_require _).bind_certain fun _ => (certain_note _).bind fun _ => certain_pure _

theorem traceless_fill (r : AttrSet) (given : Attrs) : Traceless (fill r given) :=
  (traceless_examine r given).bind_certain fun _ => certain_pure _

theorem traceless_assign (s : SetId) (given : Attrs) : Traceless (assign s given) :=
  (certain_read _).traceless.bind_quiet (quiet_read _) fun r =>
    (traceless_examine r given).bind_certain fun _ =>
      (certain_change _).bind fun _ => certain_pure _

theorem traceless_attach (parent child : GraphId) : Traceless (attach parent child) :=
  (traceless_require _).bind_certain fun _ =>
    (certain_change _).bind fun _ => (certain_change _).bind fun _ => certain_change _

theorem traceless_addNode (g : GraphId) (name : String) (given : Attrs) :
    Traceless (addNode g name given) :=
  (certain_read _).traceless.bind_quiet (quiet_read _) fun r =>
    (traceless_fill r given).bind_certain fun _ => certain_make _

theorem traceless_addHtmlNode (g : GraphId) (name : String) (given : Attrs) :
    Traceless (addHtmlNode g name given) :=
  (certain_read _).traceless.bind_quiet (quiet_read _) fun r =>
    (traceless_fill r given).bind_certain fun _ => certain_make _

/-- The attributes are examined before either end is resolved. -/
theorem traceless_addEdge (g : GraphId) (source target : NodeRef) (given : Attrs) :
    Traceless (addEdge g source target given) :=
  (certain_read _).traceless.bind_quiet (quiet_read _) fun r =>
    (traceless_fill r given).bind_certain fun _ =>
      (certain_make _).bind fun _ => (certain_make _).bind fun _ => certain_make _

/-- The compass point is looked up before either part of the port is changed. -/
theorem traceless_setPort (e : EdgeId) (side : Side) (name compass : Option String) :
    Traceless (setPort e side name compass) :=
  (traceless_require _).bind_certain fun _ => (certain_change _).bind fun _ => certain_change _

theorem traceless_save (g : GraphId) (stem directory : Option RawText) :
    Traceless (save g stem directory) :=
  (traceless_require _).bind_quiet (quiet_require _) fun _ =>
    (traceless_require _).bind_certain fun _ => (certain_note _).bind fun _ => certain_pure _

theorem certain_answer (f : Workspace → Answer) : Certain (answer f) :=
  (certain_read _).bind fun _ => certain_pure _

theorem certain_present (o : Object) (f : Workspace → Answer) : Certain (present o f) :=
  (certain_read _).bind fun _ => certain_pure _

/-! ## Commands -/

theorem traceless_execute (c : Command) : Traceless (execute c) := by
  cases c with
  | newGraph | newNode | newHtmlNode | newEdge =>
    exact ((certain_make _).bind fun _ => certain_present _ _).traceless
  | newSet =>
    exact (traceless_require _).bind_certain fun _ =>
      (certain_make _).bind fun _ => certain_present _ _
  | addNode g name given =>
    exact (traceless_addNode g name given).bind_certain fun _ => certain_present _ _
  | addHtmlNode g name given =>
    exact (traceless_addHtmlNode g name given).bind_certain fun _ => certain_present _ _
  | findNode =>
    refine ((certain_read _).bind fun found => ?_).traceless
    cases found with
    | none => exact certain_answer _
    | some n => cases n <;> exact certain_present _ _
  | addEdge g source target given =>
    exact (traceless_addEdge g source target given).bind_certain fun _ => certain_present _ _
  | findEdge => exact (traceless_require _).bind_certain fun _ => certain_present _ _
  | attach parent child =>
    exact (traceless_attach parent child).bind_certain fun _ => certain_answer _
  | assign o given =>
    exact (certain_read _).traceless.bind_quiet (quiet_read _) fun s =>
      (traceless_assign s given).bind_certain fun _ => certain_answer _
  | assignDefaults g scope given =>
    exact (traceless_assign _ given).bind_certain fun _ => certain_answer _
  | showText | lint => exact (traceless_require _).bind_certain fun _ => certain_answer _
  | removeNode | renameGraph | renameNode | setGraphStrict | setStrict | addRow =>
    exact ((certain_change _).bind fun _ => certain_answer _).traceless
  | save g stem directory => exact traceless_save g stem directory
  | showSet | endNode => exact ((certain_read _).bind fun _ => certain_present _ _).traceless
  | setTable =>
    exact (traceless_require _).bind_certain fun _ =>
      (certain_change _).bind fun _ => certain_answer _
  | setPort e side name compass =>
    exact (traceless_setPort e side name compass).bind_certain fun _ => certain_answer _
  | showEntries | showDefaults | showTextWith | describe | showGraph | showEdge | same
  | showTable | showRows =>
    exact (certain_answer _).traceless

theorem traceless_perform (c : Command) : Traceless (perform c) :=
  (traceless_require _).bind_quiet (quiet_require _) fun _ => traceless_execute c

end Action

namespace Workspace

/-! ## Single steps -/

/-- A command on things that were made is done as it is executed. -/
theorem step_of_execute {w : Workspace} {c : Command} {o : Outcome} {t : Action.State}
    (hm : c.mentions.all w.made = true) (h : Action.execute c ⟨w, []⟩ = .ok o t) :
    w.step c = (t.workspace, ⟨.ok o, t.log⟩) := by
  have hp : Action.perform c ⟨w, []⟩ = .ok o t := by
    unfold Action.perform
    rw [Action.require_bind_eq_ok_iff]
    exact ⟨(), if_pos hm, h⟩
  unfold step
  rw [hp]

/-- It is refused for the reason for which its execution is. -/
theorem result_of_execute {w : Workspace} {c : Command} {e : Error} {t : Action.State}
    (hm : c.mentions.all w.made = true) (h : Action.execute c ⟨w, []⟩ = .error e t) :
    (w.step c).2.result = .error e := by
  have hp : Action.perform c ⟨w, []⟩ = .error e t := by
    unfold Action.perform
    rw [Action.bind_eq_error_iff]
    exact .inr ⟨(), _, Action.require_eq_ok_iff.2 ⟨if_pos hm, rfl⟩, h⟩
  unfold step
  rw [hp]

/-- A refused command leaves the workspace as it was and notes nothing. -/
theorem step_of_refused {w : Workspace} {c : Command} {e : Error}
    (h : (w.step c).2.result = .error e) : w.step c = (w, ⟨.error e, []⟩) := by
  unfold step at h ⊢
  cases hp : Action.perform c ⟨w, []⟩ with
  | ok o s =>
    rw [hp] at h
    cases h
  | error e' s =>
    rw [hp] at h
    cases h
    rw [Action.traceless_perform c _ _ _ hp]

end Workspace

/-! ## Lists of commands -/

/-- Whether a command was refused for a reason of the given sort. -/
def Reply.refusedFor (sort : Error → Bool) (r : Reply) : Bool :=
  match r.result with
  | .ok _ => false
  | .error e => sort e

theorem Reply.exists_error_of_refusedFor {sort : Error → Bool} {r : Reply}
    (h : r.refusedFor sort = true) : ∃ e, r.result = .error e := by
  unfold refusedFor at h
  split at h
  · cases h
  · exact ⟨_, by assumption⟩

namespace Workspace

/-- The commands of a list, each with the reply that it gets. -/
def transcript (w : Workspace) (cs : List Command) : List (Command × Reply) :=
  cs.zip (w.run cs).2

theorem run_cons (w : Workspace) (c : Command) (cs : List Command) :
    w.run (c :: cs) =
      (((w.step c).1.run cs).1, (w.step c).2 :: ((w.step c).1.run cs).2) := rfl

theorem run_append (w : Workspace) (cs ds : List Command) :
    (w.run (cs ++ ds)).1 = ((w.run cs).1.run ds).1 := by
  induction cs generalizing w with
  | nil => rfl
  | cons c cs ih => exact ih (w.step c).1

theorem transcript_cons (w : Workspace) (c : Command) (cs : List Command) :
    w.transcript (c :: cs) = (c, (w.step c).2) :: (w.step c).1.transcript cs := rfl

theorem length_run (w : Workspace) (cs : List Command) : (w.run cs).2.length = cs.length := by
  induction cs generalizing w with
  | nil => rfl
  | cons c cs ih => rw [run_cons, List.length_cons, List.length_cons, ih]

theorem map_fst_transcript (w : Workspace) (cs : List Command) :
    (w.transcript cs).map Prod.fst = cs :=
  List.map_fst_zip (Nat.le_of_eq (w.length_run cs).symm)

theorem map_snd_transcript (w : Workspace) (cs : List Command) :
    (w.transcript cs).map Prod.snd = (w.run cs).2 :=
  List.map_snd_zip (Nat.le_of_eq (w.length_run cs))

/-- Every reply of a transcript is the reply of a single step. -/
theorem exists_step_of_mem_transcript {w : Workspace} {cs : List Command} {x : Command × Reply}
    (h : x ∈ w.transcript cs) : ∃ v : Workspace, x.2 = (v.step x.1).2 := by
  induction cs generalizing w with
  | nil => cases h
  | cons c cs ih =>
    rcases List.mem_cons.1 h with rfl | h
    · exact ⟨w, rfl⟩
    · exact ih h

theorem run_filter_transcript (sort : Error → Bool) (w : Workspace) (cs : List Command) :
    w.run (((w.transcript cs).filter fun x => !x.2.refusedFor sort).map Prod.fst) =
      ((w.run cs).1, ((w.transcript cs).filter fun x => !x.2.refusedFor sort).map Prod.snd) := by
  induction cs generalizing w with
  | nil => rfl
  | cons c cs ih =>
    rw [transcript_cons, run_cons]
    by_cases h : (w.step c).2.refusedFor sort = true
    · obtain ⟨e, he⟩ := Reply.exists_error_of_refusedFor h
      have hw : (w.step c).1 = w := by rw [step_of_refused he]
      rw [List.filter_cons_of_neg (by simp [h]), hw]
      exact ih w
    · rw [List.filter_cons_of_pos (by simp [h]), List.map_cons, run_cons, ih, List.map_cons]

/-- **Commands are all or nothing.**  Leave out of a list of commands all that are refused for
reasons of whatever sort: every other command gets the reply that it got before, with the same
notes, and the same workspace is left.  The commands left out had noted nothing, and none of them
had changed anything in the workspace that it was tried in. -/
theorem run_without_refused (sort : Error → Bool) (w : Workspace) (cs : List Command) :
    let tried := w.transcript cs
    let rest := tried.filter fun x => !x.2.refusedFor sort
    (tried.map Prod.fst = cs ∧ tried.map Prod.snd = (w.run cs).2) ∧
      w.run (rest.map Prod.fst) = ((w.run cs).1, rest.map Prod.snd) ∧
      (∀ x ∈ tried, x.2.refusedFor sort = true → x.2.log = []) ∧
      ∀ (v : Workspace) (c : Command), (v.step c).2.refusedFor sort = true → (v.step c).1 = v := by
  refine ⟨⟨w.map_fst_transcript cs, w.map_snd_transcript cs⟩, w.run_filter_transcript sort cs,
    ?_, ?_⟩
  · intro x hx h
    obtain ⟨v, hv⟩ := exists_step_of_mem_transcript hx
    rw [hv] at h ⊢
    obtain ⟨e, he⟩ := Reply.exists_error_of_refusedFor h
    rw [step_of_refused he]
  · intro v c h
    obtain ⟨e, he⟩ := Reply.exists_error_of_refusedFor h
    rw [step_of_refused he]

end Workspace

end DotBuilder
