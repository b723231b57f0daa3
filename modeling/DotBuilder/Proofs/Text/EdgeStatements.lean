import DotBuilder.Proofs.Records
import DotBuilder.Proofs.Text.AttributeLists

/-!
# Edge statements are unambiguous

The statement of an edge has up to nine parts in a row, of which four can be missing.  Names end at
a quote, what is said of a port ends at a blank, and the operator tells the kind of the graph.  So
all can be told from the statement but one thing, which no reader of DOT can tell: whether a single
word behind a colon is the name of a place or a side.

* `Port.Alike`, `Port.text_eq_iff` : the ports of which an edge statement says the same;
* `statementChars`, `delimited_statementChars` : an edge statement up to its attribute list tells
  where it ends;
* `edgeText_ne_nodeText` : no edge is shown like a node;
* `edgeText_eq_iff_alike` : what two edges with the same statement have in common.
-/

namespace DotBuilder

/-! ## Words and sides -/

theorem Compass.name_inj {c d : Compass} : c.name = d.name ↔ c = d := by
  constructor
  · cases c <;> cases d <;> simp [name]
  · exact congrArg name

/-- The name of a compass point is a word of letters. -/
theorem Compass.notMem_name {x : Char} (hx : x = ' ' ∨ x = ':') (c : Compass) :
    x ∉ c.name.toList := by
  rcases hx with rfl | rfl <;> cases c <;> decide

theorem Kind.operator_inj {k l : Kind} : k.operator = l.operator ↔ k = l := by
  cases k <;> cases l <;> decide

theorem Kind.toList_operator (k : Kind) : ∃ x, k.operator.toList = ['-', x] := by
  cases k
  · exact ⟨'-', rfl⟩
  · exact ⟨'>', rfl⟩

theorem Kind.delimited_operator :
    Text.Delimited (fun _ : Kind => True) fun k => k.operator.toList := by
  refine Text.delimited_of_length (n := 2) (fun k _ => ?_) (fun k l _ _ h => ?_)
  · cases k <;> rfl
  · exact operator_inj.1 (String.toList_inj.1 h)

theorem Side.forall_iff {P : Side → Prop} : (∀ side, P side) ↔ P .source ∧ P .target := by
  constructor
  · exact fun h => ⟨h .source, h .target⟩
  · rintro ⟨hs, ht⟩ (_ | _)
    · exact hs
    · exact ht

/-! ## Ports -/

namespace Port

variable {p q : Port}

/-- The name of the place, if there is one; an empty one counts as none. -/
def place (p : Port) : Option String := p.name.filter fun s => s ≠ ""

/-- A port of which the place ends where it is taken to end: its name has no blank and no colon
inside. -/
def Legible (p : Port) : Prop := ∀ s ∈ p.name, ' ' ∉ s.toList ∧ ':' ∉ s.toList

instance (p : Port) : Decidable p.Legible := inferInstanceAs (Decidable (∀ s ∈ p.name, _))

/-- The port is a place that has the name of a compass point, and the other is the side. -/
def Mimics (p q : Port) : Prop :=
  ∃ c : Compass, p.place = some c.name ∧ p.compass = none ∧ q.place = none ∧ q.compass = some c

instance (p q : Port) : Decidable (p.Mimics q) :=
  decidable_of_iff
    (∃ c ∈ Compass.all, p.place = some c.name ∧ p.compass = none ∧ q.place = none ∧
      q.compass = some c)
    ⟨fun ⟨c, _, h⟩ => ⟨c, h⟩, fun ⟨c, h⟩ => ⟨c, c.mem_all, h⟩⟩

/-- The ports are the same place and side, or one is a place and the other a side of one name. -/
def Alike (p q : Port) : Prop :=
  (p.place = q.place ∧ p.compass = q.compass) ∨ p.Mimics q ∨ q.Mimics p

instance (p q : Port) : Decidable (p.Alike q) := inferInstanceAs (Decidable (_ ∨ _ ∨ _))

/-- What stands behind the colons in the text of a port. -/
def words (p : Port) : List String := p.place.toList ++ (p.compass.map Compass.name).toList

/-- Two ports have the same words iff they are alike. -/
theorem words_eq_iff : p.words = q.words ↔ p.Alike q := by
  unfold words Alike Mimics
  -- The numbers of words agree, or a place alone stands against a side alone.
  rcases p.place with _ | a <;> rcases p.compass with _ | c <;> rcases q.place with _ | b <;>
    rcases q.compass with _ | d <;> simp [Compass.name_inj]
  exact eq_comm

/-- The text of a port is its words, each behind a colon. -/
theorem toList_text (p : Port) : p.text.toList = p.words.flatMap fun s => ':' :: s.toList := by
  have hname : p.nameText.toList = p.place.toList.flatMap fun s => ':' :: s.toList := by
    unfold nameText place
    rcases p.name with _ | s
    · rfl
    · by_cases hs : s = "" <;> simp [Option.filter, hs]
  have hcompass : p.compassText.toList =
      (p.compass.map Compass.name).toList.flatMap fun s => ':' :: s.toList := by
    unfold compassText
    rcases p.compass with _ | c <;> simp
  rw [text, words, String.toList_append, hname, hcompass, List.flatMap_append]

theorem words_legible (hp : p.Legible) : ∀ s ∈ p.words, ' ' ∉ s.toList ∧ ':' ∉ s.toList := by
  intro s hs
  rcases List.mem_append.1 hs with hs | hs
  · exact hp s (Option.filter_eq_some_iff.1 (Option.mem_toList.1 hs)).1
  · obtain ⟨c, -, rfl⟩ := Option.map_eq_some_iff.1 (Option.mem_toList.1 hs)
    exact ⟨c.notMem_name (.inl rfl), c.notMem_name (.inr rfl)⟩

/-- What is said of a port has no blank inside. -/
theorem blank_notMem_text (hp : p.Legible) : ' ' ∉ p.text.toList := by
  rw [toList_text, List.mem_flatMap]
  rintro ⟨s, hs, hmem⟩
  rcases List.mem_cons.1 hmem with h | h
  · cases h
  · exact (words_legible hp s hs).1 h

/-- **Ports of which the same is said are alike.** -/
theorem text_eq_iff (hp : p.Legible) (hq : q.Legible) : p.text = q.text ↔ p.Alike q := by
  rw [← words_eq_iff, ← String.toList_inj, toList_text, toList_text]
  constructor
  · intro h
    -- With a colon behind them the words end at colons.
    have hshift : ∀ ss : List String, (ss.flatMap fun s => ':' :: s.toList) ++ [':'] =
        ':' :: ss.flatMap fun s => s.toList ++ [':'] := by
      intro ss
      induction ss with
      | nil => rfl
      | cons s ss ih => simp [ih]
    have hrows : (p.words.flatMap fun s => s.toList ++ [':']) ++ [] =
        (q.words.flatMap fun s => s.toList ++ [':']) ++ [] := by
      have := congrArg (· ++ [':']) h
      simpa [hshift] using this
    have hnot : ∀ s : String, ':' ∉ s.toList → ¬ s.toList ++ [':'] <+: [] := by
      intro s _
      simp
    exact ((Text.delimited_terminated ':' []).flatMap_inj (fun s hs => (words_legible hp s hs).2)
      (fun s hs => (words_legible hq s hs).2) hnot hnot hrows).1
  · intro h
    rw [h]

/-- What is said of a port is nothing, or begins with a colon. -/
theorem text_cases (p : Port) : p.text.toList = [] ∨ ∃ rest, p.text.toList = ':' :: rest := by
  rw [toList_text]
  rcases p.words with _ | ⟨s, ss⟩
  · exact .inl rfl
  · exact .inr ⟨_, List.flatMap_cons⟩

end Port

/-! ## Attribute lists behind a statement -/

theorem AttrSet.textWith_cases (s : AttrSet) (extra : Attrs) :
    (s.textWith extra).toList = [] ∨ ∃ rest, (s.textWith extra).toList = ' ' :: '[' :: rest := by
  by_cases h : s.shown extra = []
  · exact .inl (by simp [textWith_of_shown_nil h])
  · let inner := String.intercalate ", " ((s.shown extra).map (pairText s.html))
    refine .inr ⟨inner.toList ++ [']'], ?_⟩
    rw [textWith_of_shown_ne_nil h]
    simp [inner]

/-- Whether there is a list or not, a blank comes next if one is put behind it. -/
theorem AttrSet.exists_text_append (s : AttrSet) :
    ∃ rest, s.text.toList ++ [' '] = ' ' :: rest := by
  rcases s.textWith_cases .empty with h | ⟨rest, h⟩
  · exact ⟨[], by rw [text, h]; rfl⟩
  · exact ⟨_, by rw [text, h]; rfl⟩

namespace Workspace

variable {w w₁ w₂ : Workspace} {e e₁ e₂ : EdgeId}

/-! ## Statements -/

/-- The port at one end of an edge. -/
def endPort (w : Workspace) (e : EdgeId) (side : Side) : Port := ((w.edge e).endAt side).port

/-- The kind of the graph that an edge belongs to. -/
def edgeKind (w : Workspace) (e : EdgeId) : Kind := (w.graph (w.edge e).graph).kind

/-- The name of a node and what is said of a port, with the blank behind them. -/
def endChars (x : String × String) : List Char :=
  (Text.inQuotes x.1).toList ++ (x.2.toList ++ [' '])

/-- The two ends of an edge, with the operator and a blank between them and a blank behind them. -/
def statementChars (x : (String × String) × Kind × (String × String)) : List Char :=
  endChars x.1 ++ ((x.2.1.operator.toList ++ [' ']) ++ endChars x.2.2)

/-- An end of an edge that ends where it is taken to end. -/
def LegibleEnd (x : String × String) : Prop := '"' ∉ x.1.toList ∧ ' ' ∉ x.2.toList

theorem delimited_endChars : Text.Delimited LegibleEnd endChars :=
  Text.delimited_inQuotes.pair fun _ _ => Text.delimited_terminated ' ' []

/-- **An edge statement tells where its attribute list begins.** -/
theorem delimited_statementChars :
    Text.Delimited (fun x => LegibleEnd x.1 ∧ True ∧ LegibleEnd x.2.2) statementChars :=
  delimited_endChars.pair fun _ _ =>
    (Kind.delimited_operator.before [' ']).pair fun _ _ => delimited_endChars

/-- What an edge statement says of the ends of an edge and of its graph. -/
def endParts (w : Workspace) (e : EdgeId) : (String × String) × Kind × (String × String) :=
  ((w.endName e .source, (w.endPort e .source).text), w.edgeKind e,
    (w.endName e .target, (w.endPort e .target).text))

theorem edgeText_eq (w : Workspace) (e : EdgeId) :
    w.edgeText e = Text.inQuotes (w.endName e .source) ++ (w.endPort e .source).text ++ " " ++
      (w.edgeKind e).operator ++ " " ++
      (Text.inQuotes (w.endName e .target) ++ (w.endPort e .target).text) ++
        (w.attrSet (.edge e)).text := rfl

/-- A statement with a blank behind it is its ends and what follows them. -/
theorem toList_edgeText {rest : List Char}
    (h : (w.attrSet (.edge e)).text.toList ++ [' '] = ' ' :: rest) :
    (w.edgeText e).toList ++ [' '] = statementChars (w.endParts e) ++ rest := by
  simp [edgeText_eq, statementChars, endChars, endParts, h]

/-- An edge of which the names of the nodes have no `"` inside, and the places no blank and no
colon. -/
structure LegibleEdge (w : Workspace) (e : EdgeId) : Prop where
  name (side : Side) : '"' ∉ (w.endName e side).toList
  port (side : Side) : (w.endPort e side).Legible

instance : Decidable (w.LegibleEdge e) :=
  decidable_of_iff
    (∀ side ∈ [Side.source, .target],
      '"' ∉ (w.endName e side).toList ∧ (w.endPort e side).Legible)
    ⟨fun h => ⟨fun side => (h side (by cases side <;> decide)).1,
      fun side => (h side (by cases side <;> decide)).2⟩,
      fun h side _ => ⟨h.name side, h.port side⟩⟩

theorem LegibleEdge.endParts (h : w.LegibleEdge e) :
    LegibleEnd (w.endParts e).1 ∧ True ∧ LegibleEnd (w.endParts e).2.2 :=
  ⟨⟨h.name .source, Port.blank_notMem_text (h.port .source)⟩, trivial,
    ⟨h.name .target, Port.blank_notMem_text (h.port .target)⟩⟩

/-- The statement of an edge tells all its parts. -/
theorem edgeText_eq_iff_parts (h₁ : w₁.LegibleEdge e₁) (h₂ : w₂.LegibleEdge e₂) :
    w₁.edgeText e₁ = w₂.edgeText e₂ ↔
      w₁.endParts e₁ = w₂.endParts e₂ ∧
        (w₁.attrSet (.edge e₁)).text = (w₂.attrSet (.edge e₂)).text := by
  obtain ⟨rest₁, hrest₁⟩ := (w₁.attrSet (.edge e₁)).exists_text_append
  obtain ⟨rest₂, hrest₂⟩ := (w₂.attrSet (.edge e₂)).exists_text_append
  have htext₁ := toList_edgeText hrest₁
  have htext₂ := toList_edgeText hrest₂
  constructor
  · intro h
    rw [h, htext₂] at htext₁
    obtain ⟨hparts, rfl⟩ := delimited_statementChars h₂.endParts h₁.endParts htext₁
    refine ⟨hparts.symm, String.toList_inj.1 ?_⟩
    exact List.append_cancel_right (hrest₁.trans hrest₂.symm)
  · rintro ⟨hparts, hattributes⟩
    rw [hattributes, hrest₂] at hrest₁
    rw [hparts, ← (List.cons.inj hrest₁).2, ← htext₂] at htext₁
    exact String.toList_inj.1 (List.append_cancel_right htext₁)

/-- **No edge is shown like a node.**  The places of the edge do not matter here. -/
theorem edgeText_ne_nodeText {n : NodeId} (he : '"' ∉ (w₁.endName e .source).toList)
    (hn : '"' ∉ (w₂.node n).name.toList) : w₁.edgeText e ≠ w₂.nodeText n := by
  intro h
  have hchars := congrArg String.toList h
  simp only [edgeText_eq, nodeText, String.toList_append, List.append_assoc] at hchars
  have hrest := (Text.delimited_inQuotes he hn hchars).2
  -- Behind the name there is nothing or a bracket, but not a colon or an operator.
  have hlist : (w₂.nodeAttributesText n).toList = [] ∨
      ∃ rest, (w₂.nodeAttributesText n).toList = ' ' :: '[' :: rest := by
    cases n with
    | plain p => exact AttrSet.textWith_cases _ _
    | html h => exact AttrSet.textWith_cases _ _
  obtain ⟨x, hoperator⟩ := (w₁.edgeKind e).toList_operator
  rcases (w₁.endPort e .source).text_cases with hport | ⟨word, hport⟩ <;>
    rcases hlist with hnil | ⟨rest, hcons⟩ <;> simp_all

/-- **Edge statements are unambiguous, but for a place that has the name of a side.**  Take two
edges, of whatever graphs, of which the names of the nodes have no `"` inside, and the places no
blank and no colon.  They have the same statement iff their graphs are of one kind, their attribute
lists are the same, and at each side the nodes have the same name and the ports are alike.  And no
edge whose source has no `"` in its name has the statement of a node, plain or HTML, that has none
either. -/
theorem edgeText_eq_iff_alike (w₁ w₂ : Workspace) :
    (∀ e₁ e₂, w₁.LegibleEdge e₁ → w₂.LegibleEdge e₂ →
      (w₁.edgeText e₁ = w₂.edgeText e₂ ↔
        w₁.edgeKind e₁ = w₂.edgeKind e₂ ∧
          (w₁.attrSet (.edge e₁)).text = (w₂.attrSet (.edge e₂)).text ∧
          ∀ side, w₁.endName e₁ side = w₂.endName e₂ side ∧
            (w₁.endPort e₁ side).Alike (w₂.endPort e₂ side))) ∧
    ∀ e n, '"' ∉ (w₁.endName e .source).toList → '"' ∉ (w₂.node n).name.toList →
      w₁.edgeText e ≠ w₂.nodeText n := by
  refine ⟨fun e₁ e₂ h₁ h₂ => ?_, fun e n he hn => edgeText_ne_nodeText he hn⟩
  have hport : ∀ side, (w₁.endPort e₁ side).text = (w₂.endPort e₂ side).text ↔
      (w₁.endPort e₁ side).Alike (w₂.endPort e₂ side) :=
    fun side => Port.text_eq_iff (h₁.port side) (h₂.port side)
  rw [edgeText_eq_iff_parts h₁ h₂, endParts, endParts, Side.forall_iff]
  simp only [Prod.mk.injEq, hport]
  constructor
  · rintro ⟨⟨hsource, hkind, htarget⟩, hattributes⟩
    exact ⟨hkind, hattributes, hsource, htarget⟩
  · rintro ⟨hkind, hattributes, hsource, htarget⟩
    exact ⟨⟨hsource, hkind, htarget⟩, hattributes⟩

/-- Three edges between nodes with blanks, a colon and an arrow in their names: the first leaves the
place `n`, the second the side `n`, and the third just leaves. -/
theorem edgeText_eq_iff_alike_side :
    let ends (given : Attrs) : Command :=
      .addEdge ⟨0⟩ (.named "a -> b") (.named "c:n [x=1]") given
    let e (serial : Nat) : EdgeId := ⟨.graph ⟨0⟩ serial⟩
    let w := (empty.run [.newGraph .directed "g" false, ends .empty, ends .empty, ends .empty,
      .setPort (e 0) .source (some "n") none, .setPort (e 1) .source none (some "n"),
      .setPort (e 1) .target (some "") none]).1
    let n : NodeId := .plain ⟨.graph ⟨0⟩ 0⟩
    (∀ i ∈ [0, 1, 2], w.LegibleEdge (e i)) ∧ '"' ∉ (w.node n).name.toList ∧
      w.edgeText (e 0) = w.edgeText (e 1) ∧ w.edgeText (e 0) ≠ w.edgeText (e 2) ∧
      w.edgeText (e 2) ≠ w.nodeText n := by
  intro ends e w n
  have hlegible : ∀ i ∈ [0, 1, 2], w.LegibleEdge (e i) := by decide +kernel
  have h₀ : w.LegibleEdge (e 0) := hlegible 0 (by decide)
  have h₁ : w.LegibleEdge (e 1) := hlegible 1 (by decide)
  have h₂ : w.LegibleEdge (e 2) := hlegible 2 (by decide)
  have hn : '"' ∉ (w.node n).name.toList := by decide +kernel
  refine ⟨hlegible, hn, ?_, fun h => ?_, (edgeText_eq_iff_alike w w).2 _ n (h₂.name .source) hn⟩
  · refine ((edgeText_eq_iff_alike w w).1 _ _ h₀ h₁).2 ⟨rfl, rfl, Side.forall_iff.2 ?_⟩
    decide +kernel
  · have halike := (((edgeText_eq_iff_alike w w).1 _ _ h₀ h₂).1 h).2.2 .source
    revert halike
    decide +kernel

end Workspace

end DotBuilder
