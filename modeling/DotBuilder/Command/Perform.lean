import DotBuilder.Command.Basic
import DotBuilder.Workspace.Document
import DotBuilder.Workspace.Lint

/-!
# Performing commands

`Action.perform` does a command.  A command that refers to a thing that was never made is refused.
`Workspace.step` tries a command and goes on with the workspace that it left, whether it was refused
or not, and `Workspace.run` tries a list of commands in this way.
-/

namespace DotBuilder

/-- The text of a thing: the document of a graph, the statement of a node or edge, or the attribute
list of a set. -/
def Workspace.textOf (w : Workspace) : Object → Except Error String
  | .graph g => w.dotText g
  | .node n => .ok (w.nodeText n)
  | .edge e => .ok (w.edgeText e)
  | .set s => .ok (w.attrSet s).text

namespace Action

/-! ## Shapes of outcomes -/

/-- Answers a question. -/
def answer (f : Workspace → Answer) : Action Outcome := do
  let a ← read f
  pure (.ofAnswer a)

/-- Answers a question about a thing that was made or found, and names the thing. -/
def present (o : Object) (f : Workspace → Answer) : Action Outcome := do
  let a ← read f
  pure (.ofObject a o)

/-- Saves a graph's text in an empty directory and answers with how that ended. -/
def save (g : GraphId) (stem directory : Option RawText) : Action Outcome := do
  let source ← require fun w => w.dotText g
  let (_, s) ← require fun _ => FileTree.empty.attempt ⟨RawText.ofString source, stem, directory⟩
  note (LogEntry.ofSaved s)
  pure (.ofAnswer (.saved s))

/-! ## Commands -/

/-- Does a command on things that were made. -/
def execute : Command → Action Outcome
  | .newGraph kind name strict => do
    let g ← make fun w => w.newGraph kind name strict
    present (.graph g) fun w => .text (w.describe g)
  | .newSet context html strict entries => do
    let c ← require fun _ => Context.ofName context
    let s ← make fun w => w.newSet c html strict entries
    present (.set s) fun _ => .count entries.size
  | .newNode name attributes => do
    let p ← make fun w => w.newPlain name attributes
    present (.node (.plain p)) fun w => .text (w.nodeText (.plain p))
  | .newHtmlNode name attributes => do
    let h ← make fun w => w.newHtml name attributes
    present (.node (.html h)) fun w => .text (w.nodeText (.html h))
  | .newEdge g source target => do
    let e ← make fun w => w.newEdge g source target
    present (.edge e) fun w => .text (w.edgeText e)
  | .addNode g name given => do
    let p ← addNode g name given
    present (.node (.plain p)) fun w => .text (w.nodeText (.plain p))
  | .addHtmlNode g name given => do
    let h ← addHtmlNode g name given
    present (.node (.html h)) fun w => .text (w.nodeText (.html h))
  | .findNode g name => do
    match (← read fun w => (w.graph g).node? name) with
    | none => answer fun _ => .nothing
    | some (.plain p) =>
      present (.node (.plain p)) fun w => .node false (w.nodeText (.plain p))
    | some (.html h) => present (.node (.html h)) fun w => .node true (w.nodeText (.html h))
  | .removeNode g name force => do
    change fun w => w.removeNode g name force
    answer fun w => .counts (w.counts g).1 (w.counts g).2
  | .addEdge g source target given => do
    let e ← addEdge g source target given
    present (.edge e) fun w => .edgeAdded (w.edgeText e) (w.counts g).1 (w.counts g).2
  | .findEdge g index => do
    let e ← require fun w => w.edgeAt g index
    present (.edge e) fun w => .text (w.edgeText e)
  | .attach parent child => do
    attach parent child
    answer fun _ => .flag true
  | .assign o given => do
    let s ← read fun w => w.setOf o
    let found ← assign s given
    answer fun _ => .findings found
  | .assignDefaults g scope given => do
    let found ← assign (.defaults g scope) given
    answer fun _ => .findings found
  | .showEntries o => answer fun w => .entries (w.attrSet (w.setOf o)).entries
  | .showDefaults g scope => answer fun w => .entries (w.attrSet (.defaults g scope)).entries
  | .showText o => do
    let text ← require fun w => w.textOf o
    answer fun _ => .text text
  | .showTextWith s extra => answer fun w => .text ((w.attrSet s).textWith extra)
  | .describe g => answer fun w => .text (w.describe g)
  | .lint g => do
    let found ← require fun w => w.lint g
    answer fun _ => .findings found
  | .renameGraph g name => do
    change fun w => w.renameGraph g name
    answer fun _ => .text name
  | .renameNode n name => do
    change fun w => w.renameNode n name
    answer fun _ => .text name
  | .setGraphStrict g strict => do
    change fun w => w.setGraphStrict g strict
    answer fun _ => .flag strict
  | .setStrict s strict => do
    change fun w => w.setStrict s strict
    answer fun _ => .flag strict
  | .save g stem directory => save g stem directory
  | .showGraph g => answer fun w => .graph (w.graphView g)
  | .showEdge e => answer fun w => .edge (w.edgeView e)
  | .showSet o => do
    let s ← read fun w => w.setOf o
    present (.set s) fun w => .set (w.setView s)
  | .same o p => answer fun _ => .flag (decide (o = p))
  | .addRow h sources => do
    let cells := sources.map Html.CellSource.cell
    change fun w => w.modifyTable h fun t => t.addRow cells
    answer fun _ => .text (Html.rowText cells)
  | .setTable h attributes => do
    let given ← require fun _ => attributes.elim (.error .noAttributes) .ok
    change fun w => w.modifyTable h fun t => t.setAttributes given
    answer fun w => .text (w.table h).text
  | .showTable h => answer fun w => .text (w.table h).text
  | .showRows h => answer fun w => .texts ((w.table h).rows.map Html.rowText)
  | .setPort e side name compass => do
    setPort e side name compass
    answer fun w => .text (w.edgeText e)
  | .endNode e side => do
    let n ← read fun w => ((w.edge e).endAt side).node
    present (.node n) fun w => .text (w.nodeText n)

/-- Does a command, if all things that it refers to were made. -/
def perform (c : Command) : Action Outcome := do
  require fun w => if c.mentions.all w.made then .ok () else .error .notMade
  execute c

end Action

namespace Workspace

/-- Tries a command.  The reply comes with the workspace that is left, also after a refusal. -/
def step (w : Workspace) (c : Command) : Workspace × Reply :=
  match Action.perform c ⟨w, []⟩ with
  | .ok o s => (s.workspace, ⟨.ok o, s.log⟩)
  | .error e s => (s.workspace, ⟨.error e, s.log⟩)

/-- Tries commands one after another. -/
def run (w : Workspace) : List Command → Workspace × List Reply
  | [] => (w, [])
  | c :: cs =>
    let (w', r) := w.step c
    let (w'', rs) := w'.run cs
    (w'', r :: rs)

end Workspace

end DotBuilder
