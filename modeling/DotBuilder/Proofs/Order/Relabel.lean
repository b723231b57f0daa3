import DotBuilder.Proofs.Cells.Shown

/-!
# Commands under other identifiers

A command refers to things by their identifiers, so that it has to be changed with them.  This file
also says which parts of a workspace a command overwrites: the stores, of which each graph has one
for its nodes of either sort, its edges and its clusters, and each thing with attributes has one.

* `Command.relabel` : a command under other identifiers;
* `Command.smul_eq_self` : it is the same if it refers to nothing that has another identifier;
* `Command.Steady` : the commands that change no names and no strictness;
* `Workspace.targets`, `Workspace.stores` : the stores that a command is to write, and writes;
* `Workspace.event` : what there is to a command when it is tried.
-/

namespace DotBuilder

variable {σ τ : Relabel}

theorem Object.smul_graph (σ : Relabel) (g : GraphId) : σ • Object.graph g = .graph (σ • g) := rfl

theorem Object.smul_node (σ : Relabel) (n : NodeId) : σ • Object.node n = .node (σ • n) := rfl

theorem Object.smul_edge (σ : Relabel) (e : EdgeId) : σ • Object.edge e = .edge (σ • e) := rfl

theorem Object.smul_set (σ : Relabel) (s : SetId) : σ • Object.set s = .set (σ • s) := rfl

theorem NodeId.smul_html (σ : Relabel) (h : HtmlId) : σ • NodeId.html h = .html (σ • h) := rfl

/-! ## Commands -/

/-- The end of a new edge under other identifiers. -/
def NodeRef.relabel (σ : Relabel) : NodeRef → NodeRef
  | named name => named name
  | given n => given (σ • n)

theorem NodeRef.relabel_one (r : NodeRef) : r.relabel 1 = r := by
  cases r with
  | named name => rfl
  | given n => exact congrArg NodeRef.given (one_smul Relabel n)

theorem NodeRef.relabel_mul (σ τ : Relabel) (r : NodeRef) :
    r.relabel (σ * τ) = (r.relabel τ).relabel σ := by
  cases r with
  | named name => rfl
  | given n => exact congrArg NodeRef.given (mul_smul σ τ n)

theorem NodeRef.mentions_relabel (σ : Relabel) (r : NodeRef) :
    (r.relabel σ).mentions = r.mentions.map fun o => σ • o := by
  cases r <;> rfl

namespace Command

/-- A command under other identifiers. -/
def relabel (σ : Relabel) : Command → Command
  | newGraph kind name strict => newGraph kind name strict
  | newSet context html strict entries => newSet context html strict entries
  | newNode name attributes => newNode name (attributes.map fun s => σ • s)
  | newHtmlNode name attributes => newHtmlNode name (attributes.map fun s => σ • s)
  | newEdge g source target => newEdge (σ • g) (σ • source) (σ • target)
  | addNode g name given => addNode (σ • g) name given
  | addHtmlNode g name given => addHtmlNode (σ • g) name given
  | findNode g name => findNode (σ • g) name
  | removeNode g name force => removeNode (σ • g) name force
  | addEdge g source target given => addEdge (σ • g) (source.relabel σ) (target.relabel σ) given
  | findEdge g index => findEdge (σ • g) index
  | attach parent child => attach (σ • parent) (σ • child)
  | assign o given => assign (σ • o) given
  | assignDefaults g scope given => assignDefaults (σ • g) scope given
  | showEntries o => showEntries (σ • o)
  | showDefaults g scope => showDefaults (σ • g) scope
  | showText o => showText (σ • o)
  | showTextWith s extra => showTextWith (σ • s) extra
  | describe g => describe (σ • g)
  | lint g => lint (σ • g)
  | renameGraph g name => renameGraph (σ • g) name
  | renameNode n name => renameNode (σ • n) name
  | setGraphStrict g strict => setGraphStrict (σ • g) strict
  | setStrict s strict => setStrict (σ • s) strict
  | save g stem directory => save (σ • g) stem directory
  | showGraph g => showGraph (σ • g)
  | showEdge e => showEdge (σ • e)
  | showSet o => showSet (σ • o)
  | same o p => same (σ • o) (σ • p)
  | addRow h cells => addRow (σ • h) cells
  | setTable h attributes => setTable (σ • h) attributes
  | showTable h => showTable (σ • h)
  | showRows h => showRows (σ • h)
  | setPort e side name compass => setPort (σ • e) side name compass
  | endNode e side => endNode (σ • e) side

instance : MulAction Relabel Command where
  smul := relabel
  one_smul c := by
    show c.relabel 1 = c
    cases c <;> simp [relabel, one_smul, NodeRef.relabel_one]
  mul_smul σ τ c := by
    show c.relabel (σ * τ) = (c.relabel τ).relabel σ
    cases c <;> simp [relabel, mul_smul, NodeRef.relabel_mul, Function.comp_def]

theorem mentions_smul (σ : Relabel) (c : Command) :
    (σ • c).mentions = c.mentions.map fun o => σ • o := by
  show (c.relabel σ).mentions = _
  cases c with
  | newNode name attributes | newHtmlNode name attributes => cases attributes <;> rfl
  | addEdge => simp [relabel, mentions, NodeRef.mentions_relabel, Object.smul_graph]
  | _ => rfl

/-- A command that refers to nothing that has another identifier is the same. -/
theorem smul_eq_self {c : Command} (h : ∀ o ∈ c.mentions, σ • o = o) : σ • c = c := by
  show c.relabel σ = c
  cases c with
  | newNode name attributes | newHtmlNode name attributes =>
    cases attributes <;> simp_all [mentions, relabel, Object.smul_set]
  | addEdge g source target given =>
    cases source <;> cases target <;>
      simp_all [mentions, NodeRef.mentions, relabel, NodeRef.relabel, Object.smul_graph,
        Object.smul_node]
  | _ => simp_all [mentions, relabel, Object.smul_graph, Object.smul_node, Object.smul_edge,
      Object.smul_set, NodeId.smul_html]

/-- Whether a command attaches a graph. -/
def attaches : Command → Bool
  | attach .. => true
  | _ => false

/-- The commands that name nothing anew and change no strictness, where edges join given nodes. -/
def Steady : Command → Prop
  | renameGraph .. | renameNode .. | setGraphStrict .. | setStrict .. => False
  | c => c.EndsGiven

theorem Steady.endsGiven {c : Command} (h : c.Steady) : c.EndsGiven := by
  cases c with
  | renameGraph | renameNode | setGraphStrict | setStrict => cases h
  | _ => exact h

theorem attaches_smul (σ : Relabel) (c : Command) : (σ • c).attaches = c.attaches := by
  cases c <;> rfl

theorem steady_smul (σ : Relabel) {c : Command} (h : c.Steady) : (σ • c).Steady := by
  cases c with
  | addEdge g source target given =>
    obtain ⟨s, t, rfl, rfl⟩ := Workspace.endsGiven_addEdge h.endsGiven
    trivial
  | _ => exact h

theorem series_smul (σ : Relabel) (c : Command) : (σ • c).series = c.series := by
  cases c <;> rfl

end Command

/-! ## Stores -/

/-- Whether a cell is a store: a list of things that a graph has, the attributes of a thing, the
table of a node, or the port at an end of an edge. -/
def Cell.isStore : Cell → Bool
  | clusters _ | plainNodes _ | htmlNodes _ | edges _ | table _ | port .. | entries _ => true
  | head _ | parent _ | node _ | ends _ | rules _ => false

/-- A command that is tried, with the thing that it makes. -/
structure Event where
  /-- The command. -/
  command : Command
  /-- The stores of things made before that it is to write. -/
  stores : List Cell
  /-- The thing that it makes. -/
  made : Option Object

/-- An event under other identifiers. -/
def Event.relabel (σ : Relabel) (e : Event) : Event :=
  ⟨σ • e.command, e.stores.map fun k => σ • k, e.made.map fun o => σ • o⟩

instance : MulAction Relabel Event where
  smul := Event.relabel
  one_smul e := by
    show e.relabel 1 = e
    simp [Event.relabel]
  mul_smul σ τ e := by
    show e.relabel (σ * τ) = (e.relabel τ).relabel σ
    simp [Event.relabel, mul_smul, Function.comp_def]

namespace Workspace

variable {w : Workspace} {c : Command} {k : Cell}

/-- A command is steady and refers to nothing that was not made. -/
def Ready (w : Workspace) (c : Command) : Prop :=
  c.Steady ∧ ∀ o ∈ c.mentions, w.made o = true

/-- The stores that a command is to write, but for those of what it makes. -/
def targets (w : Workspace) (c : Command) : List Cell := (w.overwrites c).filter Cell.isStore

/-- Attaching a graph writes one store, the clusters of its parent. -/
theorem targets_attach (w : Workspace) (parent child : GraphId) :
    w.targets (.attach parent child) = [.clusters parent] := by
  have hdetach : ((w.detachWrites parent child).map Write.cell).filter Cell.isStore = [] := by
    refine List.filter_eq_nil_iff.2 fun k hk => ?_
    obtain ⟨x, hx, rfl⟩ := List.mem_map.1 hk
    obtain ⟨old, -, rfl⟩ := List.mem_map.1 hx
    exact Bool.false_ne_true
  rw [targets, overwrites, List.filter_append, hdetach]
  rfl

/-- The stores that a command writes, which are none if it is refused. -/
def stores (w : Workspace) (c : Command) : List Cell := if w.accepts c then w.targets c else []

/-- What there is to a command when it is tried. -/
def event (w : Workspace) (c : Command) : Event := ⟨c, w.targets c, w.creates c⟩

/-- What there is to the commands of a list when they are tried one after another. -/
def events (w : Workspace) : List Command → List Event
  | [] => []
  | c :: cs => w.event c :: (w.step c).1.events cs

end Workspace

end DotBuilder
