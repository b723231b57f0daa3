import DotBuilder.OrdMap.Firsts
import DotBuilder.Proofs.Cells.Made
import DotBuilder.Proofs.References.Joining

/-!
# Calls on attribute sets

Attributes are given to a set call after call, and in between the set is said to be strict or not.
Each call is answered for itself, by what the set is at this moment.  What the set has at the end
follows from the maps that it took: the names stand in the order in which they were written first,
each with the value that was written last.

* `AttrSet.Takes`, `AttrSet.exists_check_eq_ok_iff` : the maps that a set takes are those that pass
  its check;
* `givenTo`, `taken` : the calls on a set in a list of commands, and the maps that it takes of them;
* `answers_of_givenTo` : how a call is answered;
* `follows_step`, `follows_run` : what a set is after a step, and after a run;
* `attributes_follow_calls` : both together.
-/

namespace DotBuilder

namespace AttrSet

variable {r r' r'' : AttrSet} {given : Attrs}

/-! ## Maps that a set takes -/

/-- A set takes a map without names, which is also what giving it no map at all comes to, any map if
it is not strict, and a map of names that its context takes. -/
def Takes (r : AttrSet) (given : Attrs) : Prop :=
  given.keys = [] ∨ r.strict = false ∨ ∀ x ∈ given.keys, accepts r.context x = true

instance (r : AttrSet) (given : Attrs) : Decidable (r.Takes given) :=
  inferInstanceAs (Decidable (_ ∨ _ ∨ _))

theorem exists_check_eq_ok_iff : (∃ found, r.check given = .ok found) ↔ r.Takes given := by
  simp only [check_eq_ok_iff, exists_eq_right, unaccepted_eq_nil_iff, Takes]
  constructor
  · intro h
    cases hs : r.strict with
    | false => exact .inr (.inl rfl)
    | true => exact .inr (.inr (h hs))
  · rintro (h | h | h) hs
    · simp [h]
    · rw [hs] at h
      cases h
    · exact h

/-- A map that is not taken is refused for its first name that the context does not take. -/
theorem first_of_check_eq_error {e : Error} (h : r.check given = .error e) :
    ∃ front x back, given.keys = front ++ x :: back ∧ (∀ y ∈ front, accepts r.context y = true) ∧
      accepts r.context x = false ∧ e = .invalidAttribute x r.context := by
  obtain ⟨-, x, rest, hx, rfl⟩ := check_eq_error_iff.1 h
  obtain ⟨front, back, hkeys, hfront, hnot, -⟩ := List.filter_eq_cons_iff.1 hx
  refine ⟨front, x, back, hkeys, fun y hy => ?_, ?_, rfl⟩
  · simpa using hfront y hy
  · simpa using hnot

/-- What trying to give a map to a set comes to in a workspace. -/
structure Answers (r : AttrSet) (given : Attrs) (w : Workspace) (tried : Workspace × Reply) :
    Prop where
  /-- It is refused if the set does not take the map. -/
  refused_iff : (∃ e, tried.2.result = .error e) ↔ ¬ r.Takes given
  /-- It is refused for the first name that the context does not take, and leaves no trace. -/
  refusal (e : Error) (h : tried.2.result = .error e) : tried = (w, ⟨.error e, []⟩) ∧
    ∃ front x back, given.keys = front ++ x :: back ∧ (∀ y ∈ front, accepts r.context y = true) ∧
      accepts r.context x = false ∧ e = .invalidAttribute x r.context
  /-- Otherwise it warns once of each name that the context does not take, and notes just this. -/
  reply (o : Outcome) (h : tried.2.result = .ok o) : ∃ found, o = .ofAnswer (.findings found) ∧
    found.errors = [] ∧
    found.warnings = (given.keys.filter fun x => !accepts r.context x).map
      (.invalidAttribute · r.context) ∧
    tried.2.log = found.warnings.map .warned

/-! ## What a set is after calls -/

/-- A set after it took maps and was said to be strict or not. -/
structure Follows (r r' : AttrSet) (maps : List Attrs) (marks : List Bool) : Prop where
  context : r'.context = r.context
  strict : r'.strict = marks.getLast?.getD r.strict
  entries : r'.entries = maps.foldl OrdMap.insertAll r.entries

namespace Follows

variable {maps maps' : List Attrs} {marks marks' : List Bool}

theorem refl (r : AttrSet) : Follows r r [] [] := ⟨rfl, rfl, rfl⟩

theorem of_eq (h : r' = r) : Follows r r' [] [] := h ▸ refl r

theorem trans (h : Follows r r' maps marks) (h' : Follows r' r'' maps' marks') :
    Follows r r'' (maps ++ maps') (marks ++ marks') where
  context := h'.context.trans h.context
  strict := by
    rw [h'.strict, h.strict, List.getLast?_append]
    cases marks'.getLast? <;> rfl
  entries := by rw [h'.entries, h.entries, List.foldl_append]

/-- The names are those of all maps in turn, each once. -/
theorem keys (h : Follows r r' maps marks) :
    r'.entries.keys = (r.entries.keys ++ maps.flatMap OrdMap.keys).eraseDups := by
  rw [h.entries, OrdMap.keys_foldl_insertAll]

/-- The last map that has a name decides on its value. -/
theorem get? (h : Follows r r' maps marks) (x : String) :
    r'.entries.get? x = (r.entries :: maps).reverse.findSome? fun m => m.get? x := by
  rw [h.entries, OrdMap.get?_foldl_insertAll]

end Follows

end AttrSet

/-- What a command says on whether a set is strict. -/
def Command.strictness (s : SetId) : Command → Option Bool
  | setStrict t strict => if t = s then some strict else none
  | _ => none

namespace Workspace

variable {w : Workspace} {c : Command} {s : SetId} {given : Attrs}

/-! ## Calls -/

/-- The map that a command gives to a set, through whichever thing has the set. -/
def givenTo (w : Workspace) (s : SetId) : Command → Option Attrs
  | .assign o given => if w.made o = true ∧ w.setOf o = s then some given else none
  | .assignDefaults g scope given =>
    if w.madeGraph g = true ∧ .defaults g scope = s then some given else none
  | _ => none

/-- The map that a set takes of a command. -/
def takenOf (w : Workspace) (s : SetId) (c : Command) : Option Attrs :=
  (w.givenTo s c).filter fun given => (w.attrSet s).Takes given

/-- The maps that a set takes in the course of commands, each as the set is at that moment. -/
def taken (w : Workspace) (s : SetId) : List Command → List Attrs
  | [] => []
  | c :: cs => (w.takenOf s c).toList ++ (w.step c).1.taken s cs

/-- A call that passes the check of the set stores the map, and replies and notes what is found. -/
theorem step_of_givenTo {found : Findings} (hc : w.givenTo s c = some given)
    (h : (w.attrSet s).check given = .ok found) :
    w.step c = (w.modifySet s fun r => r.store given,
      ⟨.ok (.ofAnswer (.findings found)), LogEntry.ofFindings found⟩) := by
  unfold givenTo at hc
  split at hc
  · obtain ⟨⟨ho, rfl⟩, ⟨⟩⟩ := Option.ite_none_right_eq_some.1 hc
    exact step_assign ho h
  · obtain ⟨⟨hg, rfl⟩, ⟨⟩⟩ := Option.ite_none_right_eq_some.1 hc
    exact step_assignDefaults hg h
  · cases hc

theorem step_of_givenTo_of_error {e : Error} (hc : w.givenTo s c = some given)
    (h : (w.attrSet s).check given = .error e) : w.step c = (w, ⟨.error e, []⟩) := by
  unfold givenTo at hc
  split at hc
  · obtain ⟨⟨ho, rfl⟩, ⟨⟩⟩ := Option.ite_none_right_eq_some.1 hc
    exact step_assign_of_error ho h
  · obtain ⟨⟨hg, rfl⟩, ⟨⟩⟩ := Option.ite_none_right_eq_some.1 hc
    exact step_assignDefaults_of_error hg h
  · cases hc

/-- **A call is answered by what the set is at this moment.** -/
theorem answers_of_givenTo (hc : w.givenTo s c = some given) :
    (w.attrSet s).Answers given w (w.step c) := by
  cases hcheck : (w.attrSet s).check given with
  | error e =>
    have hstep := step_of_givenTo_of_error hc hcheck
    have hnot : ¬ (w.attrSet s).Takes given := by
      rw [← AttrSet.exists_check_eq_ok_iff, hcheck]
      rintro ⟨found, ⟨⟩⟩
    refine ⟨?_, fun e' h => ?_, fun o h => ?_⟩
    · rw [hstep]
      exact iff_of_true ⟨e, rfl⟩ hnot
    · rw [hstep] at h ⊢
      cases h
      exact ⟨rfl, AttrSet.first_of_check_eq_error hcheck⟩
    · rw [hstep] at h
      cases h
  | ok found =>
    have hstep := step_of_givenTo hc hcheck
    have htakes : (w.attrSet s).Takes given := AttrSet.exists_check_eq_ok_iff.1 ⟨found, hcheck⟩
    obtain rfl := AttrSet.eq_of_check_eq_ok hcheck
    refine ⟨?_, fun e h => ?_, fun o h => ?_⟩
    · rw [hstep]
      exact iff_of_false (fun ⟨e, h⟩ => nomatch h) fun h => h htakes
    · rw [hstep] at h
      cases h
    · rw [hstep] at h ⊢
      cases h
      exact ⟨_, rfl, errors_attrsFindings .., warnings_attrsFindings .., rfl⟩

/-! ## Single commands -/

theorem step_setStrict (hs : w.madeSet s = true) (strict : Bool) :
    w.step (.setStrict s strict) =
      (w.setStrict s strict, ⟨.ok (.ofAnswer (.flag strict)), []⟩) := by
  have hm : (Command.setStrict s strict).mentions.all w.made = true := by
    simpa [Command.mentions, made] using hs
  exact step_of_execute hm rfl

theorem takenOf_eq_some_iff :
    w.takenOf s c = some given ↔ w.givenTo s c = some given ∧ (w.attrSet s).Takes given := by
  simp [takenOf, Option.filter_eq_some_iff]

/-- A call that is refused gives nothing, and a set is never refused to be strict or not. -/
theorem nothing_of_refused {e : Error} (hs : w.madeSet s = true)
    (h : (w.step c).2.result = .error e) : w.takenOf s c = none ∧ c.strictness s = none := by
  constructor
  · rw [Option.eq_none_iff_forall_ne_some]
    intro given htaken
    obtain ⟨hgiven, htakes⟩ := takenOf_eq_some_iff.1 htaken
    exact (answers_of_givenTo hgiven).refused_iff.1 ⟨e, h⟩ htakes
  · unfold Command.strictness
    split
    · rename_i t strict
      refine if_neg ?_
      rintro rfl
      rw [step_setStrict hs] at h
      cases h
    · rfl

/-! ## All commands -/

/-- A set that was made is another one than a set that is made now. -/
theorem get_set_of_made {t : SetId} (hs : w.madeSet s = true) (ht : w.madeSet t = false)
    (own : AttrSet) : (w.sets.set t own).get s = w.attrSet s := by
  refine Registry.get_set_of_ne _ _ ?_
  rintro rfl
  rw [ht] at hs
  cases hs

/-- A map that is stored in a set is taken by this set alone. -/
theorem follows_store {t : SetId} {found : Findings}
    (hc : w.givenTo s c = if t = s then some given else none)
    (h : (w.attrSet t).check given = .ok found) :
    (w.attrSet s).Follows ((w.modifySet t fun r => r.store given).attrSet s)
      (w.takenOf s c).toList [] := by
  rw [attrSet_modifySet]
  by_cases ht : t = s
  · subst ht
    have htakes : (w.attrSet t).Takes given := AttrSet.exists_check_eq_ok_iff.1 ⟨found, h⟩
    rw [takenOf_eq_some_iff.2 ⟨hc.trans (if_pos rfl), htakes⟩, if_pos rfl]
    exact ⟨rfl, rfl, rfl⟩
  · rw [takenOf, hc, if_neg ht, if_neg fun h => ht h.symm]
    exact .refl _

theorem givenTo_assign {o : Object} (ho : w.made o = true) :
    w.givenTo s (.assign o given) = if w.setOf o = s then some given else none := by
  simp [givenTo, ho]

theorem givenTo_assignDefaults {g : GraphId} {scope : Scope} (hg : w.madeGraph g = true) :
    w.givenTo s (.assignDefaults g scope given) =
      if .defaults g scope = s then some given else none := by
  simp [givenTo, hg]

/-- A new HTML node takes the label of its set in another way, which is all. -/
theorem follows_newHtml (hs : w.madeSet s = true) (name : String) (attributes : Option SetId) :
    (w.attrSet s).Follows ((w.newHtml name attributes).1.attrSet s) [] [] := by
  have hnot : w.madeSet (.node (.html ⟨.loose w.htmlMade⟩)) = false := by
    simp [madeSet, madeNode]
  rw [← get_set_of_made hs hnot (.blank .node true false), newHtml, attrSet, Registry.get_modify]
  split
  · rename_i heq
    rw [heq]
    exact ⟨rfl, rfl, rfl⟩
  · exact .refl _

/-- **A step leaves a set with what it took, and as strict as it was said to be.** -/
theorem follows_step (hs : w.madeSet s = true) (c : Command) :
    (w.attrSet s).Follows ((w.step c).1.attrSet s) (w.takenOf s c).toList
      (c.strictness s).toList := by
  have he : w.Effect c (w.step c).1 := w.step_effect c
  generalize (w.step c).1 = w' at he
  cases he with
  | refused h =>
    obtain ⟨htaken, hstrict⟩ := nothing_of_refused hs h
    rw [htaken, hstrict]
    exact .refl _
  | asked h =>
    have hc : w.takenOf s c = none ∧ c.strictness s = none := by
      cases c <;> first | exact ⟨rfl, rfl⟩ | cases h
    rw [hc.1, hc.2]
    exact .refl _
  | assign ho h => exact follows_store (givenTo_assign ho) h
  | assignDefaults hg h => exact follows_store (givenTo_assignDefaults hg) h
  | @setStrict t strict ht =>
    rw [setStrict, attrSet_modifySet]
    by_cases heq : s = t
    · subst heq
      rw [if_pos rfl, Command.strictness, if_pos rfl]
      exact ⟨rfl, rfl, rfl⟩
    · rw [if_neg heq, Command.strictness, if_neg fun h => heq h.symm]
      exact .refl _
  | newHtmlNode name attributes => exact follows_newHtml hs name attributes
  | newGraph kind name strict =>
    have hnot : ∀ scope, s ≠ .defaults ⟨w.graphsMade⟩ scope := by
      rintro scope rfl
      simp [madeSet, madeGraph] at hs
    refine .of_eq ?_
    simp only [newGraph, attrSet, Registry.get_set_of_ne _ _ (hnot _)]
  | newSet | newNode | newEdge | addNode | addHtmlNode =>
    refine .of_eq (get_set_of_made hs ?_ _)
    simp [madeSet, madeNode, madeEdge]
  | addEdge => exact .of_eq ((joins_connected ..).attrSet_made hs)
  | attach => exact .of_eq (attrSet_attached ..)
  | _ => exact .refl _

/-- **A run leaves a set with what it took in turn, and as strict as it was said to be last.** -/
theorem follows_run (hs : w.madeSet s = true) (cs : List Command) :
    (w.attrSet s).Follows ((w.run cs).1.attrSet s) (w.taken s cs)
      (cs.filterMap (Command.strictness s)) := by
  induction cs generalizing w with
  | nil => exact .refl _
  | cons c cs ih =>
    rw [List.filterMap_eq_flatMap_toList, List.flatMap_cons, ← List.filterMap_eq_flatMap_toList]
    have hmade : (w.step c).1.madeSet s = true := made_stays (o := .set s) hs c
    exact (follows_step hs c).trans (ih hmade)

/-- **What a set has follows from the calls that it took.**  In a workspace in which the set was
made, each time that a list of commands gives it a map, it takes the map if this has no names, if
the set is not strict at that moment, or if its context takes all names.  If not, the command is
refused for the first name that is not taken, and leaves no trace; else the reply and the log warn of
these names in the order of the map.  At the end the set has the names that it had and those of the
maps that it took, each once and where it was written first, with the value that was written
last. -/
theorem attributes_follow_calls {w : Workspace} {s : SetId} (hs : w.madeSet s = true)
    (cs : List Command) :
    let r := w.attrSet s
    let w' := (w.run cs).1
    let r' := w'.attrSet s
    let maps := w.taken s cs
    let written := r.entries.keys ++ maps.flatMap OrdMap.keys
    (∀ before c after given, cs = before ++ c :: after →
      let v := (w.run before).1
      v.givenTo s c = some given → (v.attrSet s).Answers given v (v.step c)) ∧
    (∀ before after, cs = before ++ after →
      let now := (w.run before).1.attrSet s
      now.context = r.context ∧
        now.strict = (before.filterMap (Command.strictness s)).getLast?.getD r.strict) ∧
    r'.entries.keys = written.eraseDups ∧ r'.entries.keys.Nodup ∧
    (∀ x, r'.entries.get? x = (r.entries :: maps).reverse.findSome? fun m => m.get? x) ∧
    (w'.setView s).size = written.eraseDups.length := by
  intro r w' r' maps written
  have hend : r.Follows r' maps _ := follows_run hs cs
  refine ⟨fun before c after given _ hc => answers_of_givenTo hc, fun before after _ => ?_,
    hend.keys, r'.entries.nodup_keys, hend.get?, ?_⟩
  · have hnow := follows_run hs before
    exact ⟨hnow.context, hnow.strict⟩
  · rw [← hend.keys]
    exact (List.length_map ..).symm

/-- A strict set with a color is given a shape and a name that it does not take, in vain, and once
more after it is said not to be strict; then, strict again, it is given another color. -/
theorem attributes_follow_calls_toggled :
    let s : SetId := .loose 0
    let color (name : String) : Attrs := .ofList [("color", .text name)]
    let shaped : Attrs := .ofList [("shape", .text "box"), ("foo", .int 1)]
    let w := (empty.run [.newSet "node" false true (color "red")]).1
    let cs : List Command :=
      [.assign (.set s) shaped, .setStrict s false, .assign (.set s) shaped, .setStrict s true,
        .assign (.set s) (color "blue")]
    let w' := (w.run cs).1
    w.madeSet s = true ∧ (∃ e, (w.step (.assign (.set s) shaped)).2.result = .error e) ∧
      (w'.attrSet s).entries.keys = ["color", "shape", "foo"] ∧
      (w'.attrSet s).entries.get? "color" = some (.text "blue") ∧
      (w'.attrSet s).strict = true ∧ (w'.setView s).size = 3 := by
  intro s color shaped w cs w'
  have hs : w.madeSet s = true := by decide +kernel
  obtain ⟨hanswers, hstrict, hkeys, -, hget, hsize⟩ := attributes_follow_calls hs cs
  refine ⟨hs, ?_, ?_, ?_, ?_, ?_⟩
  · exact (hanswers [] _ _ shaped rfl rfl).refused_iff.2 (by decide +kernel)
  · rw [hkeys]
    decide +kernel
  · rw [hget]
    decide +kernel
  · exact (hstrict cs [] (List.append_nil cs).symm).2.trans rfl
  · rw [hsize]
    decide +kernel

end Workspace

end DotBuilder
