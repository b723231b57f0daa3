import DotBuilder.Proofs.Cells.Made
import DotBuilder.Proofs.References.Joining

/-!
# Calls on the ports of edges

Each end of an edge is given ports call after call.  A call counts if its compass text can be
understood, and the last call that counts decides; any other call is refused and changes nothing.
Ends are told apart by the edge and the side alone, so the two ends of a loop, and the ends of edges
between the same nodes, have nothing to do with each other.

* `Compass.Gives`, `Compass.ofText_eq_ok_iff` : the compass texts that can be understood;
* `portGiven`, `portsGiven` : the ports that the commands of a list give to an end;
* `Reroutes`, `reroutes_rerouted` : an end has got a port, and nothing else has changed;
* `portAt_step`, `portAt_run` : the port of an end after a step, and after a run;
* `ports_follow_calls` : all of it together.
-/

namespace DotBuilder

/-! ## Compass texts -/

namespace Compass

/-- What a compass text gives: no compass point if it is absent or empty, and else the one that has
exactly this name. -/
inductive Gives : Option String → Option Compass → Prop where
  | absent : Gives none none
  | empty : Gives (some "") none
  | point (c : Compass) : Gives (some c.name) (some c)

theorem name_ne_empty (c : Compass) : c.name ≠ "" := by cases c <;> decide

theorem ofName?_eq_some_iff {text : String} {c : Compass} :
    ofName? text = some c ↔ text = c.name := by
  unfold ofName?
  constructor
  · intro h
    have hc := List.find?_some h
    exact (of_decide_eq_true hc).symm
  · rintro rfl
    cases c <;> decide

theorem ofName?_eq_none_iff {text : String} :
    ofName? text = none ↔ ∀ c : Compass, text ≠ c.name := by
  rw [Option.eq_none_iff_forall_ne_some]
  exact forall_congr' fun c => not_congr ofName?_eq_some_iff

theorem ofText_eq_ok_iff {text : Option String} {c : Option Compass} :
    ofText text = .ok c ↔ Gives text c := by
  constructor
  · intro h
    unfold ofText at h
    split at h
    · cases h
      exact .absent
    · rename_i s
      split at h
      · rename_i hs
        cases h
        exact hs ▸ .empty
      · split at h
        · rename_i p hp
          cases h
          exact ofName?_eq_some_iff.1 hp ▸ .point p
        · cases h
  · rintro (_ | _ | p)
    · rfl
    · rfl
    · simp only [ofText, if_neg p.name_ne_empty, ofName?_eq_some_iff.2 rfl]

/-- A text that gives nothing is refused, and the refusal shows it. -/
theorem ofText_eq_error_iff {text : Option String} {e : Error} :
    ofText text = .error e ↔
      (∀ c, ¬ Gives text c) ∧ ∃ s, text = some s ∧ e = .unknownCompass s := by
  constructor
  · intro h
    refine ⟨fun c hc => ?_, ?_⟩
    · rw [ofText_eq_ok_iff.2 hc] at h
      cases h
    · unfold ofText at h
      split at h
      · cases h
      · rename_i s
        split at h
        · cases h
        · split at h
          · cases h
          · cases h
            exact ⟨s, rfl, rfl⟩
  · rintro ⟨hnone, s, rfl, rfl⟩
    have hempty : s ≠ "" := by
      rintro rfl
      exact hnone none .empty
    have hname : ofName? s = none :=
      ofName?_eq_none_iff.2 fun c hs => hnone (some c) (hs ▸ .point c)
    simp only [ofText, if_neg hempty, hname]

end Compass

namespace Workspace

variable {w w' : Workspace} {c : Command} {e e' : EdgeId} {side side' : Side} {p p' : Port}

/-! ## Ports -/

/-- The port at one end of an edge. -/
def portAt (w : Workspace) (e : EdgeId) (side : Side) : Port := ((w.edge e).endAt side).port

/-- The port that a command gives to one end of an edge. -/
def portGiven (w : Workspace) (e : EdgeId) (side : Side) : Command → Option Port
  | .setPort e' side' name compass =>
    if w.madeEdge e' = true ∧ e' = e ∧ side' = side then
      (Compass.ofText compass).toOption.map (⟨name, ·⟩)
    else none
  | _ => none

/-- The ports that the commands of a list give to one end of an edge, one after the other. -/
def portsGiven (w : Workspace) (e : EdgeId) (side : Side) (cs : List Command) : List Port :=
  w.gather (fun v c => v.portGiven e side c) cs

/-- The calls on this very end that count are those with a compass text that can be understood. -/
theorem portGiven_eq_some_iff : w.portGiven e side c = some p ↔
    ∃ compass, c = .setPort e side p.name compass ∧ w.madeEdge e = true ∧
      Compass.Gives compass p.compass := by
  constructor
  · intro h
    unfold portGiven at h
    split at h
    · rename_i compass
      obtain ⟨⟨he, rfl, rfl⟩, hp⟩ := Option.ite_none_right_eq_some.1 h
      cases hc : Compass.ofText compass with
      | error r =>
        rw [hc] at hp
        cases hp
      | ok q =>
        rw [hc] at hp
        cases hp
        exact ⟨compass, rfl, he, Compass.ofText_eq_ok_iff.1 hc⟩
    · cases h
  · rintro ⟨compass, rfl, he, hc⟩
    rw [portGiven, if_pos ⟨he, rfl, rfl⟩, Compass.ofText_eq_ok_iff.2 hc]
    rfl

theorem portGiven_setPort {name compass : Option String} {q : Option Compass}
    (he : w.madeEdge e' = true) (hc : Compass.ofText compass = .ok q) :
    w.portGiven e side (.setPort e' side' name compass) =
      if e' = e ∧ side' = side then some ⟨name, q⟩ else none := by
  simp [portGiven, he, hc, Except.toOption]

/-! ## Giving an end a port -/

/-- One end of an edge has got a port, and nothing else has changed. -/
structure Reroutes (w w' : Workspace) (e : EdgeId) (side : Side) (p : Port) : Prop where
  /-- The end has the port. -/
  port : w'.portAt e side = p
  /-- Every other end, of this edge or another one, has the port that it had. -/
  port_other {e' : EdgeId} {side' : Side} (hne : ¬ (e = e' ∧ side = side')) :
    w'.portAt e' side' = w.portAt e' side'
  /-- All edges join the nodes that they joined. -/
  endNode (e' : EdgeId) (side' : Side) : w'.endNode e' side' = w.endNode e' side'
  /-- All edges belong to the graphs that they belonged to. -/
  graph (e' : EdgeId) : (w'.edge e').graph = (w.edge e').graph
  /-- Nodes, graphs, tables and attribute sets stay as they are. -/
  rest : w' = { w with edges := w'.edges }

theorem portAt_rerouted : (w.rerouted e side p).portAt e' side' =
    if e = e' ∧ side = side' then p else w.portAt e' side' := by
  unfold portAt rerouted modifyPort edge
  rw [Registry.get_modify]
  by_cases he : e' = e
  · subst he
    rw [if_pos rfl]
    cases side <;> cases side' <;> simp [Edge.modifyPort, Edge.endAt]
  · rw [if_neg he, if_neg fun h => he h.1.symm]

theorem graph_edge_rerouted : ((w.rerouted e side p).edge e').graph = (w.edge e').graph := by
  unfold rerouted modifyPort edge
  rw [Registry.get_modify]
  by_cases he : e' = e
  · subst he
    rw [if_pos rfl]
    cases side <;> rfl
  · rw [if_neg he]

theorem endNode_rerouted : (w.rerouted e side p).endNode e' side' = w.endNode e' side' := by
  unfold endNode rerouted modifyPort edge
  rw [Registry.get_modify]
  by_cases he : e' = e
  · subst he
    rw [if_pos rfl]
    cases side <;> cases side' <;> rfl
  · rw [if_neg he]

theorem reroutes_rerouted (w : Workspace) (e : EdgeId) (side : Side) (p : Port) :
    Reroutes w (w.rerouted e side p) e side p where
  port := by rw [portAt_rerouted, if_pos ⟨rfl, rfl⟩]
  port_other hne := by rw [portAt_rerouted, if_neg hne]
  endNode _ _ := endNode_rerouted
  graph _ := graph_edge_rerouted
  rest := rfl

/-- Ports given to different ends can be given in any order. -/
theorem rerouted_rerouted (h : ¬ (e = e' ∧ side = side')) :
    (w.rerouted e side p).rerouted e' side' p' = (w.rerouted e' side' p').rerouted e side p := by
  have hedges : ((w.edges.modify e fun r => r.modifyPort side fun _ => p).modify e' fun r =>
      r.modifyPort side' fun _ => p') =
        (w.edges.modify e' fun r => r.modifyPort side' fun _ => p').modify e fun r =>
          r.modifyPort side fun _ => p := by
    by_cases he : e = e'
    · subst he
      rw [Registry.modify_modify, Registry.modify_modify]
      congr 1
      funext r
      cases side <;> cases side' <;> first | rfl | exact absurd ⟨rfl, rfl⟩ h
    · have he' : ¬ e' = e := fun h => he h.symm
      simp only [Registry.modify, Registry.get_set_of_ne _ _ he, Registry.get_set_of_ne _ _ he',
        Registry.set_comm _ _ _ he]
  unfold rerouted modifyPort
  rw [hedges]

/-! ## Calls -/

section Calls

variable {name compass : Option String} {q : Option Compass}

theorem mentions_setPort (he : w.madeEdge e = true) :
    (Command.setPort e side name compass).mentions.all w.made = true := by
  simpa [Command.mentions, made] using he

/-- A call that counts reroutes the end and replies with the edge. -/
theorem step_setPort (he : w.madeEdge e = true) (hc : Compass.ofText compass = .ok q) :
    let v := w.rerouted e side ⟨name, q⟩
    w.step (.setPort e side name compass) = (v, ⟨.ok (.ofAnswer (.text (v.edgeText e))), []⟩) := by
  intro v
  have hv : (w.modifyPort e side fun p => { p with name := name }).modifyPort e side
      (fun p => { p with compass := q }) = v := modifyPort_modifyPort ..
  have hex : Action.execute (.setPort e side name compass) ⟨w, []⟩ =
      .ok (.ofAnswer (.text (v.edgeText e))) ⟨v, []⟩ := by
    rw [← hv]
    simp only [Action.execute, Action.setPort, Action.bind_eq_ok_iff, Action.require_eq_ok_iff]
    exact ⟨_, _, ⟨q, _, ⟨hc, rfl⟩, _, _, rfl, rfl⟩, rfl⟩
  exact step_of_execute (mentions_setPort he) hex

/-- Any other call is refused. -/
theorem step_setPort_of_error {r : Error} (he : w.madeEdge e = true)
    (hc : Compass.ofText compass = .error r) :
    w.step (.setPort e side name compass) = (w, ⟨.error r, []⟩) := by
  have hex : Action.execute (.setPort e side name compass) ⟨w, []⟩ = .error r ⟨w, []⟩ := by
    simp only [Action.execute, Action.setPort, Action.bind_eq_error_iff]
    exact .inl (.inl (Action.require_eq_error_iff.2 ⟨hc, rfl⟩))
  exact step_of_refused (result_of_execute (mentions_setPort he) hex)

end Calls

/-! ## All commands -/

/-- Ends of edges that are still to be made have no ports. -/
def Unrouted (w : Workspace) : Prop :=
  ∀ e side, w.madeEdge e = false → w.portAt e side = .anywhere

theorem unrouted_empty : Unrouted empty := by
  intro e side _
  cases side <;> rfl

/-- An edge that is made now has no ports, as it had none before. -/
theorem Unrouted.portAt_of_set (h : Unrouted w) {k : EdgeId} {g : GraphId} {s t : NodeId}
    (hw : w'.edges = w.edges.set k ⟨g, ⟨s, .anywhere⟩, ⟨t, .anywhere⟩⟩)
    (hk : w.madeEdge k = false) : w'.portAt e side = w.portAt e side := by
  by_cases he : e = k
  · subst he
    rw [h e side hk]
    unfold portAt edge
    rw [hw, Registry.get_set_self]
    cases side <;> rfl
  · unfold portAt edge
    rw [hw, Registry.get_set_of_ne _ _ he]

theorem edges_placeEdge_eq_set (g : GraphId) (s t : NodeId) (own : AttrSet) :
    (w.placeEdge g s t own).1.edges =
      w.edges.set ⟨.graph g (w.graph g).edgesMade⟩ ⟨g, ⟨s, .anywhere⟩, ⟨t, .anywhere⟩⟩ := rfl

theorem edges_connected_eq_set (g : GraphId) (source target : NodeRef) (own : AttrSet) :
    ∃ s t, (w.connected g source target own).edges =
      w.edges.set ⟨.graph g (w.graph g).edgesMade⟩ ⟨g, ⟨s, .anywhere⟩, ⟨t, .anywhere⟩⟩ := by
  rw [connected_eq_placeBare, edges_placeEdge_eq_set, edgesMade_placeBare, edges_placeBare]
  exact ⟨_, _, rfl⟩

/-- A command that is refused gives no port. -/
theorem portGiven_of_refused {r : Error} (h : (w.step c).2.result = .error r) :
    w.portGiven e side c = none := by
  rw [Option.eq_none_iff_forall_ne_some]
  intro p hp
  obtain ⟨compass, rfl, he, hc⟩ := portGiven_eq_some_iff.1 hp
  rw [step_setPort he (Compass.ofText_eq_ok_iff.2 hc)] at h
  cases h

/-- **A step gives each end the port that it is called for, and leaves all others.** -/
theorem portAt_step (hw : Unrouted w) (c : Command) (e : EdgeId) (side : Side) :
    (w.step c).1.portAt e side = (w.portGiven e side c).getD (w.portAt e side) := by
  have he : w.Effect c (w.step c).1 := w.step_effect c
  generalize (w.step c).1 = w' at he
  cases he with
  | refused h =>
    rw [portGiven_of_refused h]
    rfl
  | asked h =>
    have hc : w.portGiven e side c = none := by
      cases c <;> first | rfl | cases h
    rw [hc]
    rfl
  | setPort side' name he hc =>
    rw [portGiven_setPort he hc, portAt_rerouted]
    split <;> rfl
  | newEdge => exact hw.portAt_of_set rfl (by simp [madeEdge])
  | @addEdge g source target =>
    obtain ⟨s, t, hedges⟩ := edges_connected_eq_set (w := w) g source target _
    exact hw.portAt_of_set hedges (by simp [madeEdge])
  | attach =>
    rw [attached_eq_with_graphs]
    rfl
  | _ => rfl

/-- Ports are given to edges that were made, and these stay made. -/
theorem Unrouted.step (hw : Unrouted w) (c : Command) : Unrouted (w.step c).1 := by
  intro e side he
  have hnot : w.madeEdge e = false := by
    rw [Bool.eq_false_iff] at he ⊢
    exact fun h => he (made_stays (o := .edge e) h c)
  have hgiven : w.portGiven e side c = none := by
    rw [Option.eq_none_iff_forall_ne_some]
    intro p hp
    obtain ⟨-, -, hmade, -⟩ := portGiven_eq_some_iff.1 hp
    rw [hnot] at hmade
    cases hmade
  rw [portAt_step hw, hgiven]
  exact hw e side hnot

/-- **After a run each end has the port that it was given last.** -/
theorem portAt_run (hw : Unrouted w) (cs : List Command) (e : EdgeId) (side : Side) :
    (w.run cs).1.portAt e side =
      (w.portsGiven e side cs).getLast?.getD (w.portAt e side) :=
  eq_getLast_gather (fun v => v.portAt e side) (fun _ c hv => hv.step c)
    (fun _ c hv => portAt_step hv c e side) hw cs

/-! ## Calls on different ends -/

section Commuting

variable {name name' compass compass' : Option String} {r : Error}

/-- Whether a call is refused, and why, is up to its compass text alone. -/
theorem result_setPort_eq_error_iff (he : w.madeEdge e = true) :
    (w.step (.setPort e side name compass)).2.result = .error r ↔
      Compass.ofText compass = .error r := by
  cases hc : Compass.ofText compass with
  | ok q =>
    rw [step_setPort he hc]
    exact iff_of_false (fun h => nomatch h) (fun h => nomatch h)
  | error r' =>
    rw [step_setPort_of_error he hc]
    simp

theorem step_setPort_fst (he : w.madeEdge e = true) :
    (w.step (.setPort e side name compass)).1 =
      match Compass.ofText compass with
      | .ok q => w.rerouted e side ⟨name, q⟩
      | .error _ => w := by
  cases hc : Compass.ofText compass with
  | ok q => rw [step_setPort he hc]
  | error r => rw [step_setPort_of_error he hc]

/-- Calls on different ends can be made in any order. -/
theorem step_setPort_comm (he : w.madeEdge e = true) (he' : w.madeEdge e' = true)
    (hne : ¬ (e = e' ∧ side = side')) :
    ((w.step (.setPort e side name compass)).1.step (.setPort e' side' name' compass')).1 =
      ((w.step (.setPort e' side' name' compass')).1.step (.setPort e side name compass)).1 := by
  have hmade : (w.step (.setPort e side name compass)).1.madeEdge e' = true :=
    made_stays (o := .edge e') he' _
  have hmade' : (w.step (.setPort e' side' name' compass')).1.madeEdge e = true :=
    made_stays (o := .edge e) he _
  rw [step_setPort_fst hmade, step_setPort_fst hmade', step_setPort_fst he, step_setPort_fst he']
  cases Compass.ofText compass <;> cases Compass.ofText compass' <;>
    first | rfl | exact rerouted_rerouted hne

end Commuting

/-- **The ports of edges follow the calls on them.**  After any commands, each end of each edge has
the port that it was given last, or none if it was given none.  It is given one by each call on this
very end with no compass text, an empty one, or exactly the name of a compass point; such a call
sets this one port and changes nothing else, neither the other end, nor any other edge, node or
attribute.  A call with another text is refused as no compass point, because it is none, and leaves
no trace.  So calls on different ends can be made in any order: each is refused or not as it is
without the other, and the same workspace is left. -/
theorem ports_follow_calls (cs : List Command) :
    let w := (empty.run cs).1
    (∀ e side, w.portAt e side = (empty.portsGiven e side cs).getLast?.getD .anywhere) ∧
    (∀ (v : Workspace) e side c p, v.portGiven e side c = some p ↔
      ∃ compass, c = .setPort e side p.name compass ∧ v.madeEdge e = true ∧
        Compass.Gives compass p.compass) ∧
    ∀ e side, w.madeEdge e = true →
      (∀ name compass q, Compass.Gives compass q →
        ∃ v, w.step (.setPort e side name compass) =
            (v, ⟨.ok (.ofAnswer (.text (v.edgeText e))), []⟩) ∧
          w.Reroutes v e side ⟨name, q⟩) ∧
      (∀ name compass, (∀ q, ¬ Compass.Gives compass q) → ∃ text, compass = some text ∧
        w.step (.setPort e side name compass) = (w, ⟨.error (.unknownCompass text), []⟩) ∧
          (Error.unknownCompass text).cause? = some (.notCompassPoint text)) ∧
      ∀ e' side' name name' compass compass', w.madeEdge e' = true → ¬ (e = e' ∧ side = side') →
        let one : Command := .setPort e side name compass
        let other : Command := .setPort e' side' name' compass'
        (w.run [one, other]).1 = (w.run [other, one]).1 ∧
          ∀ r, ((w.step one).1.step other).2.result = .error r ↔
            (w.step other).2.result = .error r := by
  intro w
  refine ⟨fun e side => ?_, fun _ _ _ _ _ => portGiven_eq_some_iff, fun e side he => ⟨?_, ?_, ?_⟩⟩
  · have hrun := portAt_run unrouted_empty cs e side
    have hnone : empty.portAt e side = .anywhere := by cases side <;> rfl
    rwa [hnone] at hrun
  · intro name compass q hq
    exact ⟨_, step_setPort he (Compass.ofText_eq_ok_iff.2 hq), reroutes_rerouted ..⟩
  · intro name compass hnone
    cases compass with
    | none => exact absurd .absent (hnone none)
    | some text =>
      have hc := Compass.ofText_eq_error_iff.2 ⟨hnone, text, rfl, rfl⟩
      exact ⟨text, rfl, step_setPort_of_error he hc, rfl⟩
  · intro e' side' name name' compass compass' he' hne one other
    have hmade : (w.step one).1.madeEdge e' = true := made_stays (o := .edge e') he' one
    refine ⟨step_setPort_comm he he' hne, fun r => ?_⟩
    exact (result_setPort_eq_error_iff hmade).trans (result_setPort_eq_error_iff he').symm

/-- Two edges between the same node and itself, of which the first is given a port and a side at its
source, a port alone at its target, and then another side at its source, in vain. -/
theorem ports_follow_calls_loops :
    let g : GraphId := ⟨0⟩
    let e : EdgeId := ⟨.graph g 0⟩
    let twin : EdgeId := ⟨.graph g 1⟩
    let cs : List Command :=
      [.newGraph .undirected "g" false, .addEdge g (.named "a") (.named "a") .empty,
        .addEdge g (.named "a") (.named "a") .empty, .setPort e .source (some "p") (some "ne"),
        .setPort e .target (some "q") (some ""), .setPort e .source (some "r") (some "up")]
    let w := (empty.run cs).1
    w.madeEdge e = true ∧ w.portAt e .source = ⟨some "p", some .ne⟩ ∧
      w.portAt e .target = ⟨some "q", none⟩ ∧ w.portAt twin .source = .anywhere ∧
      (w.step (.setPort e .source none (some "N"))).1 = w ∧
      ∃ v, (w.step (.setPort e .target none (some "s"))).1 = v ∧
        v.portAt e .source = ⟨some "p", some .ne⟩ ∧ v.portAt e .target = ⟨none, some .s⟩ := by
  intro g e twin cs w
  obtain ⟨hports, -, hcalls⟩ := ports_follow_calls cs
  have he : w.madeEdge e = true := by decide +kernel
  have hsource : w.portAt e .source = ⟨some "p", some .ne⟩ := by
    rw [hports]
    decide +kernel
  refine ⟨he, hsource, ?_, ?_, ?_, ?_⟩
  · rw [hports]
    decide +kernel
  · rw [hports]
    decide +kernel
  · have hc : Compass.ofText (some "N") = .error (.unknownCompass "N") := by decide +kernel
    have hnone := (Compass.ofText_eq_error_iff.1 hc).1
    obtain ⟨text, -, hstep, -⟩ := (hcalls e .source he).2.1 none (some "N") hnone
    rw [hstep]
  · obtain ⟨v, hv, hr⟩ := (hcalls e .target he).1 none (some "s") (some .s) (.point .s)
    refine ⟨v, by rw [hv], ?_, hr.port⟩
    rw [hr.port_other (by simp), hsource]

end Workspace

end DotBuilder
