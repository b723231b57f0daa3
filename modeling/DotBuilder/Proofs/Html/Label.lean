import DotBuilder.Proofs.Cells.Owned
import DotBuilder.Proofs.Sets.Calls
import DotBuilder.Proofs.Text.AttributeLists

/-!
# The label of an HTML node

An HTML node shows its table as its label, whatever label its attribute set has.  For this the set
has to take labels as HTML-like texts, which it does from the moment on at which an HTML node is
made with it; and the table has to stand where the label of the set stands, or behind everything
else.  Nothing is stored for it.

* `AttrSet.without`, `AttrSet.Placed`, `AttrSet.exists_placed` : a list that shows one attribute in
  another way, for this once, shows the others as before;
* `html_step`, `attributes_step`, `html_of_creates` : sets that take labels as HTML-like texts go on
  doing so, nodes keep their sets, and the sets of new HTML nodes do so;
* `HtmlSets`, `htmlSets_run` : the sets of all HTML nodes do so;
* `keys_prefix_run` : what is stored later comes after what was stored before;
* `html_label_shows_table` : what this comes to for the statement of an HTML node.
-/

namespace DotBuilder

/-! ## One attribute in another way -/

namespace AttrSet

/-- A set without one of its attributes. -/
def without (r : AttrSet) (name : String) : AttrSet := { r with entries := r.entries.erase name }

/-- The attributes that are not unset. -/
def nonNull (es : List (String × Value)) : List (String × Value) := es.filter fun e => !e.2.isNull

/-- What a list shows before and after an attribute that stands in the place of that of a set, or at
the end if the set has none of the name. -/
structure Placed (r : AttrSet) (name : String) (before after : List (String × Value)) : Prop where
  /-- Together, they are what the set shows without the name. -/
  others : before ++ after = (r.without name).shown .empty
  /-- None of them has the name. -/
  once : ∀ e ∈ before ++ after, e.1 ≠ name
  /-- The name stands between them in the set, whatever its value is, or not at all. -/
  place : (∃ front v back, r.entries.entries = front ++ (name, v) :: back ∧
    before = nonNull front ∧ after = nonNull back) ∨ (name ∉ r.entries.keys ∧ after = [])

variable {r : AttrSet} {name : String}

/-- What is shown without a name has other names. -/
theorem name_ne_of_mem_shown_without {e : String × Value}
    (he : e ∈ (r.without name).shown .empty) : e.1 ≠ name := by
  have hkey : e.1 ∈ (r.entries.erase name).keys := List.mem_map_of_mem (List.mem_filter.1 he).1
  rw [OrdMap.keys_erase] at hkey
  exact of_decide_eq_true (List.mem_filter.1 hkey).2

theorem placed_of_mem {front back : List (String × Value)} {v : Value}
    (h : r.entries.entries = front ++ (name, v) :: back) :
    r.Placed name (nonNull front) (nonNull back) := by
  have hothers : nonNull front ++ nonNull back = (r.without name).shown .empty := by
    rw [nonNull, nonNull, ← List.filter_append, ← OrdMap.entries_erase_of_eq h]
    rfl
  refine ⟨hothers, fun e he => ?_, .inl ⟨front, v, back, h, rfl, rfl⟩⟩
  exact name_ne_of_mem_shown_without (hothers ▸ he)

theorem placed_of_notMem (h : name ∉ r.entries.keys) :
    r.Placed name (nonNull r.entries.entries) [] := by
  have hothers : nonNull r.entries.entries ++ [] = (r.without name).shown .empty := by
    rw [List.append_nil, ← OrdMap.entries_erase_of_notMem h]
    rfl
  refine ⟨hothers, fun e he => ?_, .inr ⟨h, rfl⟩⟩
  exact name_ne_of_mem_shown_without (hothers ▸ he)

/-- **An attribute that is shown for this once** stands in the place of that of the set, or last. -/
theorem exists_placed (r : AttrSet) (name : String) {v : Value} (hv : v.isNull = false) :
    ∃ before after, r.Placed name before after ∧
      r.shown (OrdMap.empty.insert name v) = before ++ (name, v) :: after := by
  have hshown : r.shown (OrdMap.empty.insert name v) = nonNull (r.entries.insert name v).entries :=
    rfl
  rw [hshown, nonNull]
  by_cases hname : name ∈ r.entries.keys
  · obtain ⟨u, hu⟩ := (r.entries.mem_keys_iff name).1 hname
    obtain ⟨front, back, h⟩ := List.append_of_mem ((r.entries.mem_entries_iff name u).2 hu)
    refine ⟨_, _, placed_of_mem h, ?_⟩
    rw [OrdMap.entries_insert_of_eq h, List.filter_append, List.filter_cons_of_pos (by simp [hv])]
    rfl
  · refine ⟨_, _, placed_of_notMem hname, ?_⟩
    rw [OrdMap.entries_insert_of_notMem hname, List.filter_append,
      List.filter_cons_of_pos (by simp [hv])]
    rfl

end AttrSet

namespace Workspace

variable {w : Workspace} {c : Command} {h : HtmlId} {n : NodeId} {s : SetId}

/-! ## Sets that take labels as HTML-like texts -/

/-- A set goes on taking labels as HTML-like texts. -/
theorem html_step (hs : w.madeSet s = true) (hhtml : (w.attrSet s).html = true) (c : Command) :
    ((w.step c).1.attrSet s).html = true := by
  have he : w.Effect c (w.step c).1 := w.step_effect c
  generalize (w.step c).1 = w' at he
  cases he with
  | assign | assignDefaults | setStrict =>
    simp only [setStrict, attrSet_modifySet]
    split
    · rename_i heq
      exact heq ▸ hhtml
    · exact hhtml
  | newHtmlNode name attributes =>
    rw [newHtml, attrSet, Registry.get_modify]
    split
    · rfl
    · rw [get_set_of_made hs (by simp [madeSet, madeNode])]
      exact hhtml
  | newGraph kind name strict =>
    have hnot : ∀ scope, s ≠ .defaults ⟨w.graphsMade⟩ scope := by
      rintro scope rfl
      simp [madeSet, madeGraph] at hs
    simpa only [newGraph, attrSet, Registry.get_set_of_ne _ _ (hnot _)] using hhtml
  | newSet | newNode | newEdge | addNode | addHtmlNode =>
    refine (congrArg AttrSet.html (get_set_of_made hs ?_ _)).trans hhtml
    simp [madeSet, madeNode, madeEdge]
  | addEdge =>
    rw [(joins_connected ..).attrSet_made hs]
    exact hhtml
  | attach =>
    rw [attrSet_attached]
    exact hhtml
  | _ => exact hhtml

/-- A node keeps its set. -/
theorem attributes_step (hn : w.madeNode n = true) (c : Command) :
    ((w.step c).1.node n).attributes = (w.node n).attributes := by
  have he : w.Effect c (w.step c).1 := w.step_effect c
  generalize (w.step c).1 = w' at he
  cases he with
  | newNode | newHtmlNode | addNode | addHtmlNode =>
    refine congrArg Node.attributes (Registry.get_set_of_ne _ _ ?_)
    rintro rfl
    simp [madeNode] at hn
  | @renameNode k name =>
    rw [renameNode, node, Registry.get_modify]
    split
    · rename_i heq
      rw [heq]
      rfl
    · rfl
  | addEdge => rw [(joins_connected ..).node_made hn]
  | attach =>
    rw [attached_eq_with_graphs]
    rfl
  | _ => rfl

/-- A new HTML node has a set that takes labels as HTML-like texts. -/
theorem html_of_creates (hc : w.creates c = some (.node (.html h))) :
    ((w.step c).1.attrSet ((w.step c).1.node (.html h)).attributes).html = true := by
  obtain ⟨p, hp, hthing⟩ := Option.map_eq_some_iff.1 hc
  obtain ⟨ha, hsite⟩ := siteOf_eq_some_iff.1 hp
  have he : w.Effect c (w.step c).1 := w.step_effect c
  cases c with
  | newHtmlNode name attributes =>
    cases hsite
    cases hthing
    generalize (w.step (.newHtmlNode name attributes)).1 = w' at he
    cases he with
    | refused hr => exact absurd hr (not_refused_of_accepts rfl ha _)
    | asked hq => cases hq
    | newHtmlNode =>
      simp [newHtml, node, attrSet, Registry.get_set_self, Registry.get_modify, tally, count]
  | addHtmlNode g name given =>
    cases hsite
    cases hthing
    generalize (w.step (.addHtmlNode g name given)).1 = w' at he
    cases he with
    | refused hr => exact absurd hr (not_refused_of_accepts rfl ha _)
    | asked hq => cases hq
    | addHtmlNode =>
      simp [placeHtml, node, attrSet, Registry.get_set_self, tally]
      rfl
  | newGraph | newSet | newNode | newEdge | addNode | addEdge =>
    cases hsite
    cases hthing
  | _ => cases hsite

/-- The sets of all HTML nodes take labels as HTML-like texts. -/
def HtmlSets (w : Workspace) : Prop :=
  ∀ h, w.madeNode (.html h) = true → (w.attrSet (w.node (.html h)).attributes).html = true

theorem htmlSets_step_given (hw : Owned w) (hhtml : w.HtmlSets) (hc : c.EndsGiven) :
    (w.step c).1.HtmlSets := by
  intro h hh
  rcases (made_step_iff hc (.node (.html h))).1 hh with hold | hnew
  · rw [attributes_step hold c]
    exact html_step (hw.madeSet_attributes hold) (hhtml h hold) c
  · exact html_of_creates hnew

theorem htmlSets_step (hw : Owned w) (hhtml : w.HtmlSets) (c : Command) :
    (w.step c).1.HtmlSets :=
  hw.keeps_step (fun _ _ hv h hd => htmlSets_step_given hv h hd) hhtml c

/-- **The sets of all HTML nodes take labels as HTML-like texts**, whatever commands are tried. -/
theorem htmlSets_run (cs : List Command) : (empty.run cs).1.HtmlSets := by
  have hstart : Owned empty ∧ empty.HtmlSets := by
    refine ⟨owned_empty, fun h hh => ?_⟩
    rcases h with ⟨⟨g, i⟩ | i⟩ <;> simp [madeNode, madeGraph, empty] at hh
  have hkeeps : ∀ (w : Workspace) (c : Command), Owned w ∧ w.HtmlSets →
      Owned (w.step c).1 ∧ (w.step c).1.HtmlSets :=
    fun w c hw => ⟨hw.1.step c, htmlSets_step hw.1 hw.2 c⟩
  exact (run_keeps hkeeps hstart cs).2

/-! ## Statements of HTML nodes -/

/-- Names that were written stay where they stand, before those that come later. -/
theorem keys_prefix_run (hs : w.madeSet s = true) (cs : List Command) :
    (w.attrSet s).entries.keys <+: ((w.run cs).1.attrSet s).entries.keys := by
  rw [(follows_run hs cs).keys, List.eraseDups_append,
    eraseDups_eq_self (w.attrSet s).entries.nodup_keys]
  exact List.prefix_append ..

theorem pairText_label (t : Html.Table) :
    AttrSet.pairText true ("label", t.label) = "label=<" ++ t.text ++ ">" := by
  show "label" ++ "=" ++ ("<" ++ t.text ++ ">") = _
  rw [← String.append_assoc, ← String.append_assoc]
  rfl

/-- **HTML nodes show their tables as labels.**  After all lists of commands, the attribute set of
an HTML node takes its label as an HTML-like text, whether the node was made with it or got it from
elsewhere and shares it.  The statement of the node is its name and a list.  In this the table
stands once, in angle brackets and without quotes, under the name `label`: in the place of the label
of the set, also if this is unset, or last if the set has none.  The other pairs are those of the
list that the set has without its label, in order.  Names keep their places in a set from when they
are first stored, so the label stands where it was first stored; and showing the node changes
nothing. -/
theorem html_label_shows_table (cs : List Command) (h : HtmlId)
    (hh : (empty.run cs).1.madeNode (.html h) = true) :
    let w := (empty.run cs).1
    let s := (w.node (.html h)).attributes
    let r := w.attrSet s
    let listText (pairs : List String) := " [" ++ String.intercalate ", " pairs ++ "]"
    let pairTexts (es : List (String × Value)) := es.map (AttrSet.pairText r.html)
    r.html = true ∧
    (∃ before after, r.Placed "label" before after ∧
      (r.without "label").text =
        (if (before ++ after).isEmpty then "" else listText (pairTexts (before ++ after))) ∧
      w.nodeText (.html h) = Text.inQuotes (w.node (.html h)).name ++
        listText (pairTexts before ++
          ("label=<" ++ (w.table h).text ++ ">") :: pairTexts after)) ∧
    (∀ earlier later, cs = earlier ++ later → (empty.run earlier).1.madeSet s = true →
      ((empty.run earlier).1.attrSet s).entries.keys <+: r.entries.keys) ∧
    w.step (.showText (.node (.html h))) =
      (w, ⟨.ok (.ofAnswer (.text (w.nodeText (.html h)))), []⟩) := by
  intro w s r listText pairTexts
  have hhtml : r.html = true := htmlSets_run cs h hh
  refine ⟨hhtml, ?_, ?_, ?_⟩
  · obtain ⟨before, after, hplaced, hshown⟩ := r.exists_placed "label" (v := (w.table h).label) rfl
    refine ⟨before, after, hplaced, ?_, ?_⟩
    · show (r.without "label").textWith .empty = _
      rw [hplaced.others]
      split
      · rename_i hnone
        exact AttrSet.textWith_of_shown_nil (List.isEmpty_iff.1 hnone)
      · rename_i hsome
        exact AttrSet.textWith_of_shown_ne_nil fun hnone => hsome (List.isEmpty_iff.2 hnone)
    · show Text.inQuotes (w.node (.html h)).name ++ r.textWith (w.labelOf h) = _
      rw [AttrSet.textWith_of_shown_ne_nil (by rw [labelOf, hshown]; simp), labelOf, hshown]
      simp only [listText, pairTexts, List.map_append, List.map_cons, hhtml, pairText_label]
  · rintro earlier later rfl hmade
    show _ <+: ((empty.run (earlier ++ later)).1.attrSet s).entries.keys
    rw [run_append]
    exact keys_prefix_run hmade later
  · have hm : (Command.showText (.node (.html h))).mentions.all w.made = true := by
      simpa [Command.mentions, made] using hh
    exact step_of_execute hm rfl

/-- A plain node and an HTML node share a set that was not made for HTML nodes and in which the
label is unset.  Then the plain node is given a width and a label. -/
theorem html_label_shows_table_shared :
    let h : HtmlId := ⟨.loose 0⟩
    let s : SetId := .loose 0
    let stored : Attrs := .ofList [("color", .text "red"), ("label", .null), ("shape", .text "box")]
    let cs : List Command :=
      [.newSet "node" false false stored, .newNode "b" (some s), .newHtmlNode "a" (some s),
        .addRow h [.made (.text "x") .empty],
        .assign (.node (.plain ⟨.loose 0⟩)) (.ofList [("width", .int 2), ("label", .text "y")])]
    let w := (empty.run cs).1
    let text :=
      "\"a\" [color=\"red\", label=<<table><tr><td>x</td></tr></table>>, shape=box, width=2]"
    w.madeNode (.html h) = true ∧ (w.attrSet s).html = true ∧
      w.step (.showText (.node (.html h))) = (w, ⟨.ok (.ofAnswer (.text text)), []⟩) := by
  intro h s stored cs w text
  have hh : w.madeNode (.html h) = true := by decide +kernel
  have htext : w.nodeText (.html h) = text := by decide +kernel
  obtain ⟨hhtml, -, -, hstep⟩ := html_label_shows_table cs h hh
  refine ⟨hh, hhtml, ?_⟩
  rw [hstep, htext]

end Workspace

end DotBuilder
