import DotBuilder.Proofs.Order.Exchange

/-!
# Interleavings

The commands that are to write a store make a thread, and so do the commands that attach graphs.
Commands of different threads may be tried in any order: whether a list of commands is tried or
another one in which each thread has the same order, the texts and the lint of the graphs are the
same.

* `Thread`, `Event.isIn` : the threads, and the commands in them;
* `Apart.moved`, `exists_moved` : a command may be tried before commands of other threads;
* `Reordered` : the same commands are tried, and each thread has the same order;
* `Reordered.alike` : then the workspaces are alike in the end.
-/

namespace DotBuilder

/-- The commands that are to write a store, or that attach graphs. -/
inductive Thread where
  /-- The commands that are to write a store. -/
  | store (k : Cell)
  /-- The commands that attach graphs. -/
  | attaching

/-- Whether an event is in a thread. -/
def Event.isIn (e : Event) : Thread → Bool
  | .store k => k ∈ e.stores
  | .attaching => e.command.attaches

theorem Event.isIn_store_iff {e : Event} {k : Cell} : e.isIn (.store k) = true ↔ k ∈ e.stores :=
  decide_eq_true_iff

/-- Under other identifiers the threads are the same but for their stores. -/
theorem Event.exists_isIn_smul (σ : Relabel) (t : Thread) :
    ∃ u : Thread, ∀ e : Event, (σ • e).isIn t = e.isIn u := by
  cases t with
  | attaching => exact ⟨.attaching, fun e => Command.attaches_smul σ e.command⟩
  | store k =>
    refine ⟨.store (σ⁻¹ • k), fun e => decide_eq_decide.2 ?_⟩
    show k ∈ e.stores.map (fun k => σ • k) ↔ _
    rw [List.mem_map]
    constructor
    · rintro ⟨k, hk, rfl⟩
      rwa [inv_smul_smul]
    · exact fun hk => ⟨_, hk, smul_inv_smul σ k⟩

theorem Event.filter_map_smul {σ : Relabel} {es fs : List Event} {t u : Thread}
    (hu : ∀ e : Event, (σ • e).isIn t = e.isIn u)
    (h : es.filter (fun e => e.isIn u) = fs.filter fun e => e.isIn u) :
    (es.map fun e => σ • e).filter (fun e => e.isIn t) =
      (fs.map fun e => σ • e).filter fun e => e.isIn t := by
  have hfun : (fun e : Event => e.isIn t) ∘ (fun e => σ • e) = fun e => e.isIn u := funext hu
  rw [List.filter_map, List.filter_map, hfun, h]

/-- Where lists have the same elements of a kind in the same order, and an element is taken from
both that is first in one of them and not found before in the other: there is none of the kind
before it if it is of the kind, and the rest of the lists have the same elements of the kind. -/
theorem filter_append_of_notMem {α : Type} {a : α} {pre post as : List α} {p : α → Bool}
    (h : (pre ++ a :: post).filter p = (a :: as).filter p) (ha : a ∉ pre) :
    (p a = true → ∀ b ∈ pre, p b = false) ∧ (pre ++ post).filter p = as.filter p := by
  rw [List.filter_append] at h ⊢
  by_cases hp : p a = true
  · rw [List.filter_cons_of_pos hp, List.filter_cons_of_pos hp] at h
    cases hpre : pre.filter p with
    | nil =>
      rw [hpre] at h
      refine ⟨fun _ b hb => Bool.eq_false_iff.2 (List.filter_eq_nil_iff.1 hpre b hb), ?_⟩
      exact (List.cons.inj h).2
    | cons b bs =>
      rw [hpre] at h
      have hb : b ∈ pre := List.mem_of_mem_filter (hpre ▸ List.mem_cons_self ..)
      exact absurd ((List.cons.inj h).1 ▸ hb) ha
  · rw [List.filter_cons_of_neg hp, List.filter_cons_of_neg hp] at h
    exact ⟨fun hp' => absurd hp' hp, h⟩

namespace Workspace

variable {σ τ : Relabel} {w : Workspace} {c d : Command} {o : Object}
  {cs ds pre post : List Command}

/-! ## Events -/

theorem events_append (w : Workspace) (cs ds : List Command) :
    w.events (cs ++ ds) = w.events cs ++ (w.run cs).1.events ds := by
  induction cs generalizing w with
  | nil => rfl
  | cons c cs ih => exact congrArg (w.event c :: ·) (ih (w.step c).1)

/-- An event of a list of commands is that of one of them, after those before it. -/
theorem exists_of_events_eq {es fs : List Event} {e : Event} (h : w.events cs = es ++ e :: fs) :
    ∃ pre c post, cs = pre ++ c :: post ∧ w.events pre = es ∧ (w.run pre).1.event c = e ∧
      ((w.run pre).1.step c).1.events post = fs := by
  induction es generalizing w cs with
  | nil =>
    cases cs with
    | nil => cases h
    | cons c cs => exact ⟨[], c, cs, rfl, rfl, (List.cons.inj h).1, (List.cons.inj h).2⟩
  | cons f es ih =>
    cases cs with
    | nil => cases h
    | cons c cs =>
      obtain ⟨hhead, htail⟩ := List.cons.inj h
      obtain ⟨pre, d, post, rfl, hpre, hd, hpost⟩ := ih htail
      exact ⟨c :: pre, d, post, rfl, congrArg₂ List.cons hhead hpre, hd, hpost⟩

theorem Ready.step (hc : w.Ready c) (hd : w.Ready d) : (w.step d).1.Ready c :=
  ⟨hc.1, fun o ho => made_step hd.1.endsGiven (hc.2 o ho)⟩

theorem smul_eq_self_of_maker (h : σ • o.maker = o.maker) : σ • o = o := by
  cases o with
  | set s => exact congrArg Object.set (smul_set_eq_self h)
  | _ => exact h

section Fixed

variable (hw : Built w) (hc : w.Ready c)

include hw hc

theorem targets_smul_eq_self (hσ : ∀ o, w.made o = true → σ • o = o) :
    (w.targets c).map (fun k => σ • k) = w.targets c := by
  refine (List.map_congr_left fun k hk => ?_).trans (List.map_id _)
  exact smul_cell_eq_self (hσ _ (made_of_mem_targets hw hc hk))

theorem isIn_smul_event (hσ : ∀ o, w.made o = true → σ • o = o) (t : Thread) :
    (σ • w.event c).isIn t = (w.event c).isIn t := by
  cases t with
  | attaching => exact Command.attaches_smul σ c
  | store k =>
    show decide (k ∈ (w.targets c).map fun k => σ • k) = _
    rw [targets_smul_eq_self hw hc hσ]
    rfl

/-- The event of a command is the same if nothing that was made then has another identifier. -/
theorem event_smul_eq_self (hσ : ∀ o, (w.step c).1.made o = true → σ • o = o) :
    σ • w.event c = w.event c := by
  have hbefore : ∀ o, w.made o = true → σ • o = o := fun o ho =>
    hσ o (made_step hc.1.endsGiven ho)
  have hcommand : σ • c = c := Command.smul_eq_self fun o ho => hbefore o (hc.2 o ho)
  have hmade : (w.creates c).map (fun o => σ • o) = w.creates c := by
    cases hnew : w.creates c with
    | none => rfl
    | some o =>
      obtain ⟨p, -, rfl⟩ := Option.map_eq_some_iff.1 hnew
      refine congrArg some (hσ _ ((made_step_iff hc.1.endsGiven _).2 (.inr ?_)))
      rw [Site.maker_thing, hnew]
  show (⟨σ • c, (w.targets c).map fun k => σ • k, (w.creates c).map fun o => σ • o⟩ : Event) = _
  rw [hcommand, targets_smul_eq_self hw hc hbefore, hmade]
  rfl

end Fixed

/-! ## Moving a command -/

/-- A command is tried before others as it is after them, under other identifiers. -/
structure Moved (τ : Relabel) (w : Workspace) (pre : List Command) (c : Command) : Prop where
  made (o : Object) (ho : w.made o = true) : τ • o = o
  obeys : (w.step c).1.Obeys Ready (pre.map fun d => τ • d)
  events : (w.step c).1.events (pre.map fun d => τ • d) = (w.events pre).map fun e => τ • e
  event : w.event c = τ • (w.run pre).1.event c
  alike : Alike τ ((w.run pre).1.step c).1 ((w.step c).1.run (pre.map fun d => τ • d)).1

/-- Commands of different threads have nothing to do with each other. -/
theorem apart_of_threads (hd : w.Ready d) (hc : w.Ready c)
    (h : ∀ t, (w.event c).isIn t = true → (w.event d).isIn t = false) : Apart w d c := by
  refine ⟨hd, hc, fun k hk hk' => ?_, fun ⟨hd', hc'⟩ => ?_⟩
  · have hin := h (.store k) (Event.isIn_store_iff.2 (mem_targets_of_mem_stores hk'))
    rw [Event.isIn_store_iff.2 (mem_targets_of_mem_stores hk)] at hin
    cases hin
  · exact Bool.eq_false_iff.1 (h .attaching hc') hd'

theorem Apart.event_eq (h : Apart w d c) (hw : Built w) :
    (w.step d).1.event c = w.exchange d c • w.event c := by
  rw [exchange_comm]
  exact h.symm.event_step hw

/-- A command that was moved to the front of commands can be moved in front of one more. -/
theorem Apart.moved (h : Apart w d c) (hw : Built w) (hτ : Moved τ (w.step d).1 pre c) :
    Moved (w.exchange d c * τ) w (d :: pre) c := by
  have hevent : τ • w.event d = w.event d := event_smul_eq_self hw h.left hτ.made
  have hlist : (d :: pre).map (fun b => (w.exchange d c * τ) • b) =
      d :: (pre.map fun b => τ • b).map fun b => w.exchange d c • b := by
    have hcommand : τ • d = d := congrArg Event.command hevent
    rw [List.map_cons, List.map_map, mul_smul, hcommand, h.smul_left]
    exact congrArg (d :: ·) (List.map_congr_left fun b _ => mul_smul _ _ b)
  -- the two workspaces are alike before the commands of `pre`, and so after them
  obtain ⟨hobeys, hevents, halike⟩ :=
    (h.alike hw).run ((hw.step d).step c) ((hw.step c).step d) hτ.obeys
  refine ⟨fun o ho => ?_, ?_, ?_, ?_, ?_⟩
  · rw [mul_smul, hτ.made o (made_step h.left.1.endsGiven ho), exchange_smul_of_made ho]
  · rw [hlist]
    exact ⟨h.left.step h.right, hobeys⟩
  · rw [hlist, Workspace.events, hevents, hτ.events, h.event_step hw, Workspace.events,
      List.map_cons, List.map_map, mul_smul, hevent]
    exact congrArg (_ :: ·) (List.map_congr_left fun e _ => (mul_smul _ _ e).symm)
  · show w.event c = (w.exchange d c * τ) • ((w.step d).1.run pre).1.event c
    rw [mul_smul, ← hτ.event, h.event_eq hw, exchange_smul_smul]
  · rw [hlist]
    exact hτ.alike.trans halike

/-- **A command may be tried before commands of other threads.** -/
theorem exists_moved (hw : Built w) (hc : w.Ready c) (hpre : w.Obeys Ready pre)
    (h : ∀ e ∈ w.events pre, ∀ t, (w.event c).isIn t = true → e.isIn t = false) :
    ∃ τ, (c.series = none → τ = 1) ∧ Moved τ w pre c := by
  induction pre generalizing w with
  | nil =>
    refine ⟨1, fun _ => rfl, fun o _ => one_smul _ o, trivial, rfl, ?_, .refl _⟩
    exact (one_smul Relabel (w.event c)).symm
  | cons d pre ih =>
    obtain ⟨hd, hpre⟩ := hpre
    have hapart : Apart w d c := apart_of_threads hd hc (h _ (List.mem_cons_self ..))
    have hthreads : ∀ e ∈ (w.step d).1.events pre, ∀ t, ((w.step d).1.event c).isIn t = true →
        e.isIn t = false := by
      intro e he t ht
      rw [hapart.event_eq hw, isIn_smul_event hw hc fun o => exchange_smul_of_made] at ht
      exact h e (List.mem_cons_of_mem _ he) t ht
    obtain ⟨τ, hone, hτ⟩ := ih (hw.step d) (hc.step hd) hpre hthreads
    refine ⟨w.exchange d c * τ, fun hs => ?_, hapart.moved hw hτ⟩
    have hcounted : w.counted c = none := by
      unfold counted
      rw [hs, ite_self]
    rw [exchange_comm, exchange_eq_one hcounted, hone hs, one_mul]

/-! ## The same threads -/

/-- The commands of two lists are ready when they are tried.  They are the same, and each makes the
same, under other identifiers for what they make; and each thread has the same order. -/
structure Reordered (σ : Relabel) (w : Workspace) (cs ds : List Command) : Prop where
  left : w.Obeys Ready cs
  right : w.Obeys Ready ds
  made (o : Object) (ho : w.made o = true) : σ • o = o
  events : (w.events ds).Perm ((w.events cs).map fun e => σ • e)
  threads (t : Thread) : (w.events ds).filter (fun e => e.isIn t) =
    ((w.events cs).map fun e => σ • e).filter fun e => e.isIn t

namespace Reordered

/-- The first command of one list is found in the other one behind commands of other threads, and
without it each thread still has the same order in both. -/
theorem exists_first (h : Reordered σ w (c :: cs) ds) (hw : Built w) :
    ∃ pre post, ds = pre ++ c :: post ∧ (w.run pre).1.event c = σ • w.event c ∧
      (∀ e ∈ w.events pre, ∀ t, (w.event c).isIn t = true → e.isIn t = false) ∧
      (w.events pre ++ ((w.run pre).1.step c).1.events post).Perm
        (((w.step c).1.events cs).map fun e => σ • e) ∧
      ∀ t, (w.events pre ++ ((w.run pre).1.step c).1.events post).filter (fun e => e.isIn t) =
        (((w.step c).1.events cs).map fun e => σ • e).filter fun e => e.isIn t := by
  have hc : w.Ready c := h.left.1
  have hmem : σ • w.event c ∈ w.events ds := h.events.mem_iff.2 (List.mem_cons_self ..)
  obtain ⟨es, fs, hsplit, hfirst⟩ := List.eq_append_cons_of_mem hmem
  obtain ⟨pre, d, post, rfl, rfl, hd, rfl⟩ := exists_of_events_eq hsplit
  have hcommand : d = c := by
    have hσ : d = σ • c := congrArg Event.command hd
    rw [hσ, Command.smul_eq_self fun o ho => h.made o (hc.2 o ho)]
  subst hcommand
  have hthreads := fun t => filter_append_of_notMem (hsplit ▸ h.threads t) hfirst
  refine ⟨pre, post, rfl, hd, fun e he t ht => ?_, ?_, fun t => (hthreads t).2⟩
  · refine (hthreads t).1 ?_ e he
    rw [isIn_smul_event hw hc h.made, ht]
  · exact (List.perm_middle.symm.trans (hsplit ▸ h.events)).cons_inv

/-- The first command of one of the lists may be tried first in the other one, too. -/
theorem exists_tail (h : Reordered σ w (c :: cs) ds) (hw : Built w) :
    ∃ τ es, Reordered (τ * σ) (w.step c).1 cs es ∧
      Alike τ (w.run ds).1 ((w.step c).1.run es).1 := by
  obtain ⟨hc, hcs⟩ := h.left
  obtain ⟨pre, post, rfl, hevent, hother, hperm, hthreads⟩ := h.exists_first hw
  obtain ⟨hpre, -, hpost⟩ := obeys_append.1 h.right
  obtain ⟨τ, -, hτ⟩ := exists_moved hw hc hpre hother
  obtain ⟨hobeys, hevents, halike⟩ := hτ.alike.run ((hw.run pre).step c)
    ((hw.step c).run _) hpost
  have hlist : (w.step c).1.events ((pre ++ post).map fun b => τ • b) =
      (w.events pre ++ ((w.run pre).1.step c).1.events post).map fun e => τ • e := by
    rw [List.map_append, events_append, hτ.events, hevents, List.map_append]
  have hmap : ((w.step c).1.events cs).map (fun e => (τ * σ) • e) =
      (((w.step c).1.events cs).map fun e => σ • e).map fun e => τ • e := by
    rw [List.map_map]
    exact List.map_congr_left fun e _ => mul_smul τ σ e
  refine ⟨τ, (pre ++ post).map fun b => τ • b, ⟨hcs, ?_, fun o ho => ?_, ?_, fun t => ?_⟩, ?_⟩
  · rw [List.map_append]
    exact obeys_append.2 ⟨hτ.obeys, hobeys⟩
  · rcases (made_step_iff hc.1.endsGiven o).1 ho with hold | hnew
    · rw [mul_smul, h.made o hold, hτ.made o hold]
    · -- `σ` takes what the command makes to what it makes behind the others, and `τ` takes it back
      have hmade : w.creates c = ((w.creates c).map fun o => σ • o).map fun o => τ • o :=
        congrArg Event.made (hevent ▸ hτ.event)
      rw [hnew] at hmade
      exact smul_eq_self_of_maker ((mul_smul τ σ o.maker).trans (Option.some.inj hmade).symm)
  · rw [hlist, hmap]
    exact hperm.map _
  · obtain ⟨u, hu⟩ := Event.exists_isIn_smul τ t
    rw [hlist, hmap]
    exact Event.filter_map_smul hu (hthreads u)
  · rw [List.map_append, run_append, run_append]
    exact halike

/-- **Where each thread has the same order the workspaces are alike in the end.** -/
theorem alike (h : Reordered σ w cs ds) (hw : Built w) :
    ∃ ρ, (∀ g, (w.run cs).1.madeGraph g = true → ρ • g = σ • g) ∧
      Alike ρ (w.run cs).1 (w.run ds).1 := by
  induction cs generalizing w ds σ with
  | nil =>
    have hnil : w.events ds = [] := List.Perm.eq_nil h.events
    have hds : ds = [] := by
      cases ds with
      | nil => rfl
      | cons d ds => cases hnil
    subst hds
    exact ⟨1, fun g hg => (Object.graph.inj (h.made (.graph g) hg)).symm, .refl w⟩
  | cons c cs ih =>
    obtain ⟨τ, es, hes, hτ⟩ := h.exists_tail hw
    obtain ⟨ρ, hρ, halike⟩ := ih hes (hw.step c)
    refine ⟨τ⁻¹ * ρ, fun g hg => ?_, halike.trans hτ.symm⟩
    rw [mul_smul, hρ g hg, mul_smul, inv_smul_smul]

end Reordered

/-! ## Attaching before and after -/

/-- Only commands that attach graphs are to write the clusters of graphs. -/
theorem clusters_notMem_targets {g : GraphId} (hc : c.attaches = false) :
    Cell.clusters g ∉ w.targets c := by
  intro hk
  have hk : Cell.clusters g ∈ w.overwrites c := (List.mem_filter.1 hk).1
  cases c with
  | attach => cases hc
  | newHtmlNode name attributes =>
    obtain ⟨s, -, hs⟩ := List.mem_map.1 hk
    cases hs
  | removeNode g name force => cases force <;> simp [overwrites] at hk
  | addNode | addHtmlNode | addEdge | assign | assignDefaults | addRow | setTable | setPort
  | renameGraph | renameNode | setGraphStrict | setStrict => cases List.mem_singleton.1 hk
  | _ => cases hk

/-- A graph may be attached before commands that attach none, or after them. -/
theorem attach_alike (hw : Built w) {parent child : GraphId} {fill : List Command}
    (hp : w.madeGraph parent = true) (hc : w.madeGraph child = true) (hfill : w.Obeys Ready fill)
    (hno : ∀ c ∈ fill, c.attaches = false) :
    Alike 1 (w.run (fill ++ [.attach parent child])).1
      (w.run (.attach parent child :: fill)).1 := by
  have hready : w.Ready (.attach parent child) :=
    ⟨trivial, List.forall_mem_cons.2 ⟨hp, List.forall_mem_singleton.2 hc⟩⟩
  obtain ⟨τ, hone, hτ⟩ := exists_moved hw hready hfill fun e he t ht => by
    obtain ⟨es, fs, hsplit⟩ := List.append_of_mem he
    obtain ⟨pre, d, post, rfl, -, rfl, -⟩ := exists_of_events_eq hsplit
    have hd : d.attaches = false := hno d (List.mem_append_right _ (List.mem_cons_self ..))
    cases t with
    | attaching => exact hd
    | store k =>
      have hk : k ∈ w.targets (.attach parent child) := Event.isIn_store_iff.1 ht
      rw [targets_attach, List.mem_singleton] at hk
      subst hk
      exact Bool.eq_false_iff.2 fun hin => clusters_notMem_targets hd (Event.isIn_store_iff.1 hin)
  obtain rfl := hone rfl
  have halike := hτ.alike
  simp only [one_smul, List.map_id'] at halike
  rw [run_append]
  exact halike

/-- **Independent steps commute.**  If two steady commands write different stores, at most one of
them attaches a graph, and neither refers to what the other makes, then the texts of all graphs and
what lint finds in them are the same after both orders, where `σ` takes what each command makes in
one order to what it makes in the other one.  So they are after two lists of the same commands, if
each store is written in the same order and graphs are attached in the same order; and a graph may
be attached before or after it is filled. -/
theorem independent_steps_commute (before : List Command) :
    let w := (empty.run before).1
    (∀ c d, w.Independent c d →
      ∃ σ : Relabel, (∀ o, w.made o = true → σ • o = o) ∧
        ((w.step d).1.creates c = (w.creates c).map fun o => σ • o) ∧
        (w.creates d = ((w.step c).1.creates d).map fun o => σ • o) ∧
        ∀ g, ((w.step c).1.step d).1.madeGraph g = true →
          ((w.step d).1.step c).1.dotText (σ • g) = ((w.step c).1.step d).1.dotText g ∧
            ((w.step d).1.step c).1.lint (σ • g) = ((w.step c).1.step d).1.lint g) ∧
    (∀ σ cs ds, w.Reordered σ cs ds → ∀ g, (w.run cs).1.madeGraph g = true →
      (w.run ds).1.dotText (σ • g) = (w.run cs).1.dotText g ∧
        (w.run ds).1.lint (σ • g) = (w.run cs).1.lint g) ∧
    ∀ parent child fill, w.madeGraph parent = true → w.madeGraph child = true →
      w.Obeys Ready fill → (∀ c ∈ fill, c.attaches = false) →
      ∀ g, (w.run (fill ++ [.attach parent child])).1.madeGraph g = true →
        (w.run (.attach parent child :: fill)).1.dotText g =
            (w.run (fill ++ [.attach parent child])).1.dotText g ∧
          (w.run (.attach parent child :: fill)).1.lint g =
            (w.run (fill ++ [.attach parent child])).1.lint g := by
  intro w
  have hw : Built w := built_run before
  refine ⟨fun c d h => ?steps, fun σ cs ds h g hg => ?lists, ?attach⟩
  case steps =>
    refine ⟨w.exchange c d, fun o => exchange_smul_of_made, h.creates_step hw, ?_, fun g hg => ?_⟩
    · rw [h.symm.creates_step hw, exchange_comm]
      simp only [Option.map_map, Function.comp_def, exchange_smul_smul, Option.map_id']
    · exact (h.alike hw).shown_eq ((hw.step c).step d) ((hw.step d).step c) hg
  case lists =>
    obtain ⟨ρ, hρ, halike⟩ := h.alike hw
    rw [← hρ g hg]
    exact halike.shown_eq (hw.run cs) (hw.run ds) hg
  case attach =>
    intro parent child fill hp hc hfill hno g hg
    have hshown := (attach_alike hw hp hc hfill hno).shown_eq (hw.run _) (hw.run _) hg
    rwa [one_smul] at hshown

/-- A graph is attached and gets a node; two graphs are made, and one of them gets a node. -/
theorem independent_steps_commute_cluster :
    let w := (empty.run [.newGraph .directed "g" false, .newGraph .directed "c" false]).1
    let attach : Command := .attach ⟨0⟩ ⟨1⟩
    let fill : Command := .addNode ⟨1⟩ "a" .empty
    let cs : List Command :=
      [.newGraph .directed "h" false, .newGraph .directed "k" false, .addNode ⟨2⟩ "b" .empty]
    let ds : List Command :=
      [.newGraph .directed "k" false, .newGraph .directed "h" false, .addNode ⟨3⟩ "b" .empty]
    let σ : Relabel := fun s => if s = .graphs then Equiv.swap 2 3 else 1
    (w.Independent attach fill ∧
        ((w.step fill).1.step attach).1.dotText ⟨0⟩ = ((w.step attach).1.step fill).1.dotText ⟨0⟩) ∧
      (w.Reordered σ cs ds ∧ (w.run ds).1.dotText ⟨3⟩ = (w.run cs).1.dotText ⟨2⟩) ∧
        w.Obeys Ready [fill] ∧
          (w.run [attach, fill]).1.lint ⟨0⟩ = (w.run [fill, attach]).1.lint ⟨0⟩ := by
  intro w attach fill cs ds σ
  obtain ⟨hsteps, hlists, hattach⟩ := independent_steps_commute
    [.newGraph .directed "g" false, .newGraph .directed "c" false]
  have hindependent : w.Independent attach fill := by
    have hattaches : w.stores attach = [.clusters ⟨0⟩] := by decide +kernel
    have hfills : w.stores fill = [.plainNodes ⟨1⟩] := by decide +kernel
    have hmade : w.creates attach = none := by decide +kernel
    have hmade' : w.creates fill = some (.node (.plain ⟨.graph ⟨1⟩ 0⟩)) := by decide +kernel
    refine ⟨trivial, trivial, fun k hk hk' => ?_, nofun, fun o _ => ?_, fun o ho => ?_⟩
    · rw [hattaches, List.mem_singleton] at hk
      rw [hfills, hk] at hk'
      cases List.mem_singleton.1 hk'
    · rw [hmade]
      exact nofun
    · rw [hmade']
      revert o
      decide
  have hreordered : w.Reordered σ cs ds := by
    have hgraphs : (w.events cs).map (fun e => σ • e) =
        [⟨.newGraph .directed "h" false, [], some (.graph ⟨3⟩)⟩,
          ⟨.newGraph .directed "k" false, [], some (.graph ⟨2⟩)⟩,
          ⟨.addNode ⟨3⟩ "b" .empty, [.plainNodes ⟨3⟩], some (.node (.plain ⟨.graph ⟨3⟩ 0⟩))⟩] := by
      rfl
    have hgraphs' : w.events ds =
        [⟨.newGraph .directed "k" false, [], some (.graph ⟨2⟩)⟩,
          ⟨.newGraph .directed "h" false, [], some (.graph ⟨3⟩)⟩,
          ⟨.addNode ⟨3⟩ "b" .empty, [.plainNodes ⟨3⟩], some (.node (.plain ⟨.graph ⟨3⟩ 0⟩))⟩] := by
      rfl
    have hleft : w.Obeys Ready cs :=
      ⟨⟨trivial, nofun⟩, ⟨trivial, nofun⟩, ⟨trivial, List.forall_mem_singleton.2 rfl⟩, trivial⟩
    have hright : w.Obeys Ready ds :=
      ⟨⟨trivial, nofun⟩, ⟨trivial, nofun⟩, ⟨trivial, List.forall_mem_singleton.2 rfl⟩, trivial⟩
    refine ⟨hleft, hright, fun o => smul_eq_of_made fun s i hi => ?_, ?_, fun t => ?_⟩
    · cases s with
      | graphs =>
        have hi : i < 2 := hi
        exact Equiv.swap_apply_of_ne_of_ne (by omega) (by omega)
      | _ => rfl
    · rw [hgraphs, hgraphs']
      exact .swap ..
    · rw [hgraphs, hgraphs']
      cases t <;> rfl
  obtain ⟨τ, hτ, -, -, hshown⟩ := hsteps attach fill hindependent
  have hroot : τ • (⟨0⟩ : GraphId) = ⟨0⟩ := Object.graph.inj (hτ (.graph ⟨0⟩) rfl)
  have htext := (hshown ⟨0⟩ rfl).1
  rw [hroot] at htext
  have hfill : w.Obeys Ready [fill] := ⟨⟨trivial, List.forall_mem_singleton.2 rfl⟩, trivial⟩
  have hfilled := hattach ⟨0⟩ ⟨1⟩ [fill] rfl rfl hfill (List.forall_mem_singleton.2 rfl) ⟨0⟩ rfl
  have hlisted := hlists σ cs ds hreordered ⟨2⟩ rfl
  exact ⟨⟨hindependent, htext⟩, ⟨hreordered, hlisted.1⟩, hfill, hfilled.2⟩

end Workspace

end DotBuilder
