import DotBuilder.Proofs.Cells.Made
import DotBuilder.Proofs.Html.Tables
import DotBuilder.Proofs.References.Joining

/-!
# Tables and what was given to them

The table of an HTML node starts blank, gets its rows one by one, and has the attributes that it was
given last.  Which rows and attributes a table was given is read off the commands that were not
refused; so whatever else is done on the way, the text of a table tells what was given to it.

* `accepted`, `rowsGiven`, `attributesGiven`, `tableGiven` : what commands give to a table;
* `TableEffect`, `step_tableEffect` : all that a step can do to the tables;
* `Html.Table.Follows`, `tableFollows_step`, `tableFollows_run` : a table has the rows that it was
  given, and the attributes that it was given last;
* `table_text_eq_iff_given` : tables have the same text iff they were given the same.
-/

namespace DotBuilder

/-- The row that a command gives to the table of a node. -/
def Command.rowFor (h : HtmlId) : Command → Option (List Html.CellSource)
  | addRow k cells => if k = h then some cells else none
  | _ => none

/-- The attributes that a command gives to the table of a node. -/
def Command.attributesFor (h : HtmlId) : Command → Option Html.Attributes
  | setTable k attributes => if k = h then attributes else none
  | _ => none

/-- Whether a command writes to a table. -/
def Command.writesTable : Command → Bool
  | addRow .. | setTable .. => true
  | _ => false

theorem Command.writesTable_of_asks {c : Command} (h : c.asks = true) : c.writesTable = false := by
  cases c <;> first | rfl | cases h

theorem Command.gives_nothing {c : Command} (hc : c.writesTable = false) (h : HtmlId) :
    c.rowFor h = none ∧ c.attributesFor h = none := by
  cases c <;> first | exact ⟨rfl, rfl⟩ | cases hc

/-! ## What a table is after it was written to -/

namespace Html

/-- A table after it was given rows and attributes. -/
structure Table.Follows (t t' : Table) (rows : List (List CellSource))
    (attributes : List Attributes) : Prop where
  rows : t'.rows = t.rows ++ rows.map fun cells => cells.map CellSource.cell
  attributes : t'.attributes = attributes.getLast?.getD t.attributes

namespace Table.Follows

variable {t t' t'' : Table} {rows rows' : List (List CellSource)}
  {attributes attributes' : List Attributes}

theorem refl (t : Table) : Follows t t [] [] := ⟨(List.append_nil _).symm, rfl⟩

theorem addRow (t : Table) (cells : List CellSource) :
    Follows t (t.addRow (cells.map CellSource.cell)) [cells] [] := ⟨rfl, rfl⟩

theorem setAttributes (t : Table) (m : Attributes) : Follows t (t.setAttributes m) [] [m] :=
  ⟨(List.append_nil _).symm, rfl⟩

theorem trans (h : Follows t t' rows attributes) (h' : Follows t' t'' rows' attributes') :
    Follows t t'' (rows ++ rows') (attributes ++ attributes') where
  rows := by rw [h'.rows, h.rows, List.map_append, List.append_assoc]
  attributes := by
    rw [h'.attributes, h.attributes, List.getLast?_append]
    cases attributes'.getLast? <;> rfl

/-- A table that was blank shows what it was given. -/
theorem shown (h : Follows .blank t rows attributes) :
    t.shown = (shownPairs (attributes.getLast?.getD .empty),
      rows.map fun row => row.map CellSource.shown) := by
  refine Prod.ext (congrArg shownPairs h.attributes) ?_
  rw [Table.shown, h.rows, blank, List.nil_append, List.map_map]
  refine List.map_congr_left fun row _ => ?_
  rw [Function.comp_apply, List.map_map]
  exact List.map_congr_left fun s _ => s.shown_cell

end Table.Follows

end Html

namespace Workspace

variable {w w' : Workspace} {c : Command} {h : HtmlId}

/-! ## What was given -/

/-- The commands of a list that are not refused. -/
def accepted (w : Workspace) (cs : List Command) : List Command :=
  ((w.transcript cs).filter fun x => x.2.result.isOk).map Prod.fst

/-- The rows that commands give to the table of a node, in order. -/
def rowsGiven (w : Workspace) (h : HtmlId) (cs : List Command) : List (List Html.CellSource) :=
  (w.accepted cs).filterMap (Command.rowFor h)

/-- The attributes that commands give to the table of a node, in order. -/
def attributesGiven (w : Workspace) (h : HtmlId) (cs : List Command) : List Html.Attributes :=
  (w.accepted cs).filterMap (Command.attributesFor h)

/-- The table that a node was given: the attributes that came last, and all rows, with each cell as
it was given. -/
def tableGiven (w : Workspace) (h : HtmlId) (cs : List Command) : Html.TableView :=
  (Html.shownPairs ((w.attributesGiven h cs).getLast?.getD .empty),
    (w.rowsGiven h cs).map fun row => row.map Html.CellSource.shown)

theorem accepted_cons (w : Workspace) (c : Command) (cs : List Command) :
    w.accepted (c :: cs) = w.accepted [c] ++ (w.step c).1.accepted cs := by
  unfold accepted
  rw [transcript_cons, ← List.singleton_append, List.filter_append, List.map_append]
  rfl

theorem accepted_singleton (w : Workspace) (c : Command) :
    w.accepted [c] = if (w.step c).2.result.isOk then [c] else [] := by
  rw [accepted, transcript_cons, List.filter_cons]
  split <;> rfl

/-- A command that is refused, or writes to no table, gives nothing. -/
theorem gives_nothing (hc : w.accepted [c] = [] ∨ c.writesTable = false) (h : HtmlId) :
    w.rowsGiven h [c] = [] ∧ w.attributesGiven h [c] = [] := by
  unfold rowsGiven attributesGiven
  rcases hc with hc | hc
  · rw [hc]
    exact ⟨rfl, rfl⟩
  · obtain ⟨hrow, hattributes⟩ := Command.gives_nothing hc h
    rw [accepted_singleton]
    split <;> simp [hrow, hattributes]

/-! ## Single commands -/

theorem all_made_html (hh : w.madeNode (.html h) = true) :
    [Object.node (.html h)].all w.made = true := by
  simpa [made] using hh

theorem step_addRow (hh : w.madeNode (.html h) = true) (cells : List Html.CellSource) :
    w.step (.addRow h cells) =
      (w.modifyTable h fun t => t.addRow (cells.map Html.CellSource.cell),
        ⟨.ok (.ofAnswer (.text (Html.rowText (cells.map Html.CellSource.cell)))), []⟩) := by
  have hm : (Command.addRow h cells).mentions.all w.made = true := all_made_html hh
  exact step_of_execute hm rfl

theorem step_setTable (hh : w.madeNode (.html h) = true) (attributes : Html.Attributes) :
    let w' := w.modifyTable h fun t => t.setAttributes attributes
    w.step (.setTable h (some attributes)) =
      (w', ⟨.ok (.ofAnswer (.text (w'.table h).text)), []⟩) := by
  have hm : (Command.setTable h (some attributes)).mentions.all w.made = true := all_made_html hh
  exact step_of_execute hm rfl

theorem step_addRow_congr (w : Workspace) (h : HtmlId) {cells cells' : List Html.CellSource}
    (heq : cells.map Html.CellSource.cell = cells'.map Html.CellSource.cell) :
    w.step (.addRow h cells) = w.step (.addRow h cells') := by
  have hexecute : Action.execute (.addRow h cells) = Action.execute (.addRow h cells') := by
    simp only [Action.execute, heq]
  have hperform : Action.perform (.addRow h cells) = Action.perform (.addRow h cells') := by
    unfold Action.perform
    rw [hexecute]
    rfl
  rw [step, step, hperform]

/-- A cell that is given by fields is one that was made beforehand, with the same in it. -/
theorem step_addRow_fields (w : Workspace) (h : HtmlId) (front back : List Html.CellSource)
    (content data : Option Value) (attributes : Option Html.Attributes) :
    w.step (.addRow h (front ++ .fields content data attributes :: back)) =
      w.step (.addRow h (front ++
        .made ((content.or data).getD (.text "")) (attributes.getD .empty) :: back)) := by
  refine w.step_addRow_congr h ?_
  simp only [List.map_append, List.map_cons, Html.CellSource.cell]

/-! ## All commands -/

/-- What a step can do to the tables. -/
inductive TableEffect (w : Workspace) (c : Command) : Registry HtmlId Html.Table → Prop where
  /-- Nothing. -/
  | kept (hc : w.accepted [c] = [] ∨ c.writesTable = false) : TableEffect w c w.tables
  /-- A node is made, with a blank table. -/
  | made {h : HtmlId} (hh : w.madeNode (.html h) = false) (hc : c.writesTable = false) :
    TableEffect w c (w.tables.set h .blank)
  /-- A row is added. -/
  | row {h : HtmlId} {cells : List Html.CellSource} (hh : w.madeNode (.html h) = true)
    (hc : c = .addRow h cells) :
    TableEffect w c (w.tables.modify h fun t => t.addRow (cells.map Html.CellSource.cell))
  /-- The attributes are replaced. -/
  | attributes {h : HtmlId} {m : Html.Attributes} (hh : w.madeNode (.html h) = true)
    (hc : c = .setTable h (some m)) :
    TableEffect w c (w.tables.modify h fun t => t.setAttributes m)

theorem step_tableEffect (w : Workspace) (c : Command) : w.TableEffect c (w.step c).1.tables := by
  have he : w.Effect c (w.step c).1 := w.step_effect c
  generalize (w.step c).1 = w' at he
  cases he with
  | refused hr =>
    refine .kept (.inl ?_)
    rw [accepted_singleton, hr]
    rfl
  | asked ha => exact .kept (.inr (Command.writesTable_of_asks ha))
  | newHtmlNode | addHtmlNode => exact .made (by simp [madeNode]) rfl
  | addRow cells hh => exact .row hh rfl
  | setTable m hh => exact .attributes hh rfl
  | addEdge =>
    rw [(joins_connected ..).tables]
    exact .kept (.inr rfl)
  | attach =>
    rw [attached_eq_with_graphs]
    exact .kept (.inr rfl)
  | _ => exact .kept (.inr rfl)

/-- The tables of nodes that were not made are blank. -/
def BlankTables (w : Workspace) : Prop := ∀ h, w.madeNode (.html h) = false → w.table h = .blank

theorem blankTables_step (hw : w.BlankTables) (c : Command) : (w.step c).1.BlankTables := by
  intro h hnot
  have hbefore : w.madeNode (.html h) = false := by
    rw [Bool.eq_false_iff] at hnot ⊢
    exact fun hmade => hnot (made_stays (o := .node (.html h)) hmade c)
  have hblank : w.tables.get h = .blank := hw h hbefore
  have he := w.step_tableEffect c
  unfold table
  generalize (w.step c).1.tables = tables at he
  cases he with
  | kept => exact hblank
  | made =>
    rw [Registry.get_set]
    split
    · rfl
    · exact hblank
  | @row k _ hh | @attributes k _ hh =>
    -- The table that is written to is that of another node.
    have hne : h ≠ k := by
      rintro rfl
      rw [hbefore] at hh
      cases hh
    rw [Registry.get_modify, if_neg hne]
    exact hblank

/-- **A step leaves a table with what it was given.** -/
theorem tableFollows_step (hw : w.BlankTables) (h : HtmlId) (c : Command) :
    (w.table h).Follows ((w.step c).1.table h) (w.rowsGiven h [c]) (w.attributesGiven h [c]) := by
  have he := w.step_tableEffect c
  unfold table
  generalize (w.step c).1.tables = tables at he
  cases he with
  | kept hc =>
    obtain ⟨hrows, hattributes⟩ := gives_nothing hc h
    rw [hrows, hattributes]
    exact .refl _
  | @made k hk hc =>
    obtain ⟨hrows, hattributes⟩ := gives_nothing (.inr hc) h
    rw [hrows, hattributes, Registry.get_set]
    split
    · rename_i heq
      have hblank : w.tables.get h = .blank := heq ▸ hw k hk
      rw [hblank]
      exact .refl _
    · exact .refl _
  | @row k cells hk hc =>
    subst hc
    have hacc : w.accepted [.addRow k cells] = [.addRow k cells] := by
      rw [accepted_singleton, step_addRow hk]
      rfl
    rw [rowsGiven, attributesGiven, hacc, Registry.get_modify]
    by_cases heq : k = h
    · subst heq
      have hrow : (Command.addRow k cells).rowFor k = some cells := if_pos rfl
      rw [List.filterMap_cons_some hrow, if_pos rfl]
      exact .addRow _ cells
    · have hrow : (Command.addRow k cells).rowFor h = none := if_neg heq
      rw [List.filterMap_cons_none hrow, if_neg (Ne.symm heq)]
      exact .refl _
  | @attributes k m hk hc =>
    subst hc
    have hacc : w.accepted [.setTable k (some m)] = [.setTable k (some m)] := by
      rw [accepted_singleton, step_setTable hk]
      rfl
    rw [rowsGiven, attributesGiven, hacc, Registry.get_modify]
    by_cases heq : k = h
    · subst heq
      have hgiven : (Command.setTable k (some m)).attributesFor k = some m := if_pos rfl
      rw [List.filterMap_cons_some hgiven, if_pos rfl]
      exact .setAttributes _ m
    · have hgiven : (Command.setTable k (some m)).attributesFor h = none := if_neg heq
      rw [List.filterMap_cons_none hgiven, if_neg (Ne.symm heq)]
      exact .refl _

/-- **A run leaves a table with the rows that it was given, and the attributes that came last.** -/
theorem tableFollows_run (hw : w.BlankTables) (h : HtmlId) (cs : List Command) :
    (w.table h).Follows ((w.run cs).1.table h) (w.rowsGiven h cs) (w.attributesGiven h cs) := by
  induction cs generalizing w with
  | nil => exact .refl _
  | cons c cs ih =>
    rw [rowsGiven, attributesGiven, accepted_cons, List.filterMap_append, List.filterMap_append]
    exact (tableFollows_step hw h c).trans (ih (blankTables_step hw c))

/-- A table shows what it was given. -/
theorem shown_table_run (cs : List Command) (h : HtmlId) :
    ((empty.run cs).1.table h).shown = empty.tableGiven h cs := by
  have hblank : empty.BlankTables := fun _ _ => rfl
  exact (tableFollows_run hblank h cs).shown

/-- **HTML tables are unambiguous.**  Take two HTML nodes that were given rows and table attributes
by any commands, among whatever else was done.  If the attributes that came last have no `=` in
their names and no `"` in their values, and neither have those of the cells, and if there is no `<`
in a cell, then the texts of the two tables are the same iff the attributes that came last are the
same, and so are the rows, cell by cell: what stands in it, and its attributes in order.  A cell
that is given by fields is never told from one that was made beforehand with the same in it. -/
theorem table_text_eq_iff_given :
    (∀ (cs₁ cs₂ : List Command) (h₁ h₂ : HtmlId),
      Html.LegibleTable (empty.tableGiven h₁ cs₁) → Html.LegibleTable (empty.tableGiven h₂ cs₂) →
        (((empty.run cs₁).1.table h₁).text = ((empty.run cs₂).1.table h₂).text ↔
          empty.tableGiven h₁ cs₁ = empty.tableGiven h₂ cs₂)) ∧
    ∀ (w : Workspace) (h : HtmlId) (front back : List Html.CellSource)
      (content data : Option Value) (attributes : Option Html.Attributes),
      w.step (.addRow h (front ++ .fields content data attributes :: back)) =
        w.step (.addRow h (front ++
          .made ((content.or data).getD (.text "")) (attributes.getD .empty) :: back)) := by
  refine ⟨fun cs₁ cs₂ h₁ h₂ hgiven₁ hgiven₂ => ?_, step_addRow_fields⟩
  rw [← shown_table_run] at hgiven₁ hgiven₂
  rw [Html.Table.text_eq_iff hgiven₁ hgiven₂, shown_table_run, shown_table_run]

/-- A node on its own and a node of a graph are given the same table in different ways: the one
gets its cells ready made and its attributes at once, the other gets fields with the content under
either name and other attributes in between.  A third table has one row more, which is empty. -/
theorem table_text_eq_iff_given_forms :
    let border (v : Value) : Html.Attributes := .ofList [("border", v)]
    let h₁ : HtmlId := ⟨.loose 0⟩
    let h₂ : HtmlId := ⟨.graph ⟨0⟩ 0⟩
    let cs₁ : List Command :=
      [.newHtmlNode "a" none, .setTable h₁ (some (border (.int 1))),
        .addRow h₁ [.made (.text "x > y") (border (.bool true)), .made (.int 7) .empty]]
    let cs₂ : List Command :=
      [.addRow h₂ [.made (.text "lost") .empty], .newGraph .directed "g" false,
        .addHtmlNode ⟨0⟩ "b" .empty, .setTable h₂ (some (border (.int 2))),
        .addRow h₂ [.fields (some (.text "x > y")) (some .null) (some (border (.text "True"))),
          .fields none (some (.text "7")) none],
        .setTable h₂ (some (border (.text "1")))]
    let cs₃ := cs₂ ++ [.addRow h₂ []]
    Html.LegibleTable (empty.tableGiven h₁ cs₁) ∧ Html.LegibleTable (empty.tableGiven h₂ cs₂) ∧
      ((empty.run cs₁).1.table h₁).text = ((empty.run cs₂).1.table h₂).text ∧
      ((empty.run cs₁).1.table h₁).text ≠ ((empty.run cs₃).1.table h₂).text := by
  intro border h₁ h₂ cs₁ cs₂ cs₃
  have hlegible₁ : Html.LegibleTable (empty.tableGiven h₁ cs₁) := by decide +kernel
  have hlegible₂ : Html.LegibleTable (empty.tableGiven h₂ cs₂) := by decide +kernel
  have hlegible₃ : Html.LegibleTable (empty.tableGiven h₂ cs₃) := by decide +kernel
  have hiff := table_text_eq_iff_given.1
  refine ⟨hlegible₁, hlegible₂, ?_, ?_⟩
  · exact (hiff cs₁ cs₂ h₁ h₂ hlegible₁ hlegible₂).2 (by decide +kernel)
  · rw [Ne, hiff cs₁ cs₃ h₁ h₂ hlegible₁ hlegible₃]
    decide +kernel

end Workspace

end DotBuilder
