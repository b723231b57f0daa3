import DotBuilder.Proofs.Outline.Lines

/-!
# Reading documents back

Clusters are indented alike at all depths, so how deep a line stands cannot be told from the line.
It can be told from the lines before it: a section lies inside of the section that was opened last
and is not closed yet.

* `Line.ofChars?` : what a line says, told from its first letters;
* `Reading`, `Reading.feed` : the sections that are open at a line, and what is complete before it;
* `Outline.read` : the outline of a document;
* `Outline.read_text` : reading a document of plain sections gives its outline back.
-/

namespace DotBuilder

namespace Line

/-- The characters of a line without the first `before` and the last `behind` ones. -/
def inner (before behind : Nat) (l : List Char) : String :=
  String.ofList ((l.drop before).take (l.length - before - behind))

/-- What a line says.  Only the opening line of a document begins with a letter. -/
def ofChars? (l : List Char) : Option Line :=
  match l, l.dropWhile (· = ' ') with
  | 'g' :: _, _ => some (.opening (.document .undirected) (inner 7 3 l))
  | 'd' :: _, _ => some (.opening (.document .directed) (inner 9 3 l))
  | _, 's' :: rest => some (.opening .subgraph (inner 9 3 rest))
  | _, 'g' :: rest => some (.defaults (.graph, inner 4 1 rest))
  | _, 'n' :: rest => some (.defaults (.node, inner 3 1 rest))
  | _, 'e' :: rest => some (.defaults (.edge, inner 3 1 rest))
  | _, '"' :: rest => some (.statement (inner 0 1 ('"' :: rest)))
  | _, '\x7d' :: _ => some .closing
  | _, _ => none

theorem inner_append (a b : List Char) (s : String) :
    inner a.length b.length (a ++ (s.toList ++ b)) = s := by
  have hlength : (a ++ (s.toList ++ b)).length - a.length - b.length = s.toList.length := by
    simp only [List.length_append]
    omega
  rw [inner, hlength, List.drop_left, List.take_left, String.ofList_toList]

/-- What a plain line says can be told from the line. -/
theorem ofChars?_text {l : Line} (h : l.Plain) (form : Form) :
    ofChars? (l.text form).toList = some l := by
  cases l with
  | opening opened name =>
    rcases opened with (_ | _) | _
    · have hname := inner_append "graph \"".toList "\" \x7b".toList name
      simpa [text, Form.keyword, Kind.keyword, Text.toList_inQuotes, ofChars?] using hname
    · have hname := inner_append "digraph \"".toList "\" \x7b".toList name
      simpa [text, Form.keyword, Kind.keyword, Text.toList_inQuotes, ofChars?] using hname
    · have hname := inner_append "ubgraph \"".toList "\" \x7b".toList name
      simpa [text, Form.keyword, Text.toList_inQuotes, ofChars?] using hname
  | defaults d =>
    obtain ⟨_ | _ | _, attributes⟩ := d
    · have hd := inner_append "raph".toList [';'] attributes
      cases form <;>
        simpa [text, Form.indent, Section.defaultsText, Scope.keyword, ofChars?] using hd
    · have hd := inner_append "ode".toList [';'] attributes
      cases form <;>
        simpa [text, Form.indent, Section.defaultsText, Scope.keyword, ofChars?] using hd
    · have hd := inner_append "dge".toList [';'] attributes
      cases form <;>
        simpa [text, Form.indent, Section.defaultsText, Scope.keyword, ofChars?] using hd
  | statement x =>
    obtain ⟨r, hr⟩ := List.head?_eq_some_iff.1 h.2
    have hx := inner_append [] [';'] x
    cases form <;> simpa [text, Form.indent, ofChars?, hr] using hx
  | closing => cases form <;> simp [text, ofChars?]

theorem mapM_ofChars? {ls : List (Form × Line)} (h : ∀ l ∈ ls, l.2.Plain) :
    (ls.map fun l => (l.2.text l.1).toList).mapM ofChars? = some (ls.map Prod.snd) := by
  induction ls with
  | nil => rfl
  | cons l ls ih =>
    have hl : l.2.Plain := h l (List.mem_cons_self ..)
    have hls : ∀ l ∈ ls, l.2.Plain := fun l' hl' => h l' (List.mem_cons_of_mem _ hl')
    rw [List.map_cons, List.mapM_cons, ofChars?_text hl l.1, ih hls]
    rfl

end Line

/-! ## Putting lines together -/

/-- What has been read of a document. -/
structure Reading where
  /-- The sections that are complete where the reader stands. -/
  row : List (Tree Section)
  /-- The open sections, the innermost first, each with the complete ones in front of it. -/
  opened : List (Section × List (Tree Section))

namespace Reading

/-- Reads one more line. -/
def feed : Reading → Line → Option Reading
  | ⟨row, opened⟩, .opening form name => some ⟨[], (⟨form, name, [], []⟩, row) :: opened⟩
  | ⟨row, (s, before) :: opened⟩, .defaults d =>
    some ⟨row, ({ s with defaults := s.defaults ++ [d] }, before) :: opened⟩
  | ⟨row, (s, before) :: opened⟩, .statement x =>
    some ⟨row, ({ s with statements := s.statements ++ [x] }, before) :: opened⟩
  | ⟨row, (s, before) :: opened⟩, .closing => some ⟨before ++ [⟨s, .ofTrees row⟩], opened⟩
  | ⟨_, []⟩, _ => none

variable {row before : List (Tree Section)} {opened : List (Section × List (Tree Section))}
  {s : Section}

theorem foldlM_defaults (ds : List (Scope × String)) :
    (ds.map Line.defaults).foldlM feed ⟨row, (s, before) :: opened⟩ =
      some ⟨row, ({ s with defaults := s.defaults ++ ds }, before) :: opened⟩ := by
  induction ds generalizing s with
  | nil => rw [List.append_nil]; rfl
  | cons d ds ih =>
    rw [List.map_cons, List.foldlM_cons, feed, Option.bind_eq_bind, Option.bind_some, ih,
      List.append_assoc, List.singleton_append]

theorem foldlM_statements (xs : List String) :
    (xs.map Line.statement).foldlM feed ⟨row, (s, before) :: opened⟩ =
      some ⟨row, ({ s with statements := s.statements ++ xs }, before) :: opened⟩ := by
  induction xs generalizing s with
  | nil => rw [List.append_nil]; rfl
  | cons x xs ih =>
    rw [List.map_cons, List.foldlM_cons, feed, Option.bind_eq_bind, Option.bind_some, ih,
      List.append_assoc, List.singleton_append]

/-- Reading the lines of a row of sections completes them, whatever stands around them. -/
theorem foldlM_lines (F : Forest Section) :
    (F.lines.map Prod.snd).foldlM feed ⟨row, opened⟩ = some ⟨row ++ F.trees, opened⟩ := by
  -- The clusters of a section are read on top of it, so the induction is for all open sections.
  induction F generalizing row opened with
  | nil => rw [Forest.trees, List.append_nil]; rfl
  | cons s below rest ihb ihr =>
    have hlines : (Forest.cons s below rest).lines.map Prod.snd =
        .opening s.form s.name :: (s.defaults.map .defaults ++ (below.lines.map Prod.snd ++
          (s.statements.map .statement ++ .closing :: rest.lines.map Prod.snd))) := by
      simp [Forest.lines, Section.linesBefore, Section.linesBehind, Function.comp_def]
    rw [hlines]
    simp only [List.foldlM_cons, List.foldlM_append, feed, Option.bind_eq_bind, Option.bind_some,
      foldlM_defaults, ihb, foldlM_statements, ihr, List.nil_append, Forest.trees,
      Forest.ofTrees_trees, List.append_assoc, List.singleton_append]

end Reading

namespace Outline

/-- The outline of a document. -/
def read (text : String) : Option (Tree Section) := do
  let lines ← (text.toList.splitOn '\n').dropLast.mapM Line.ofChars?
  match ← lines.foldlM Reading.feed ⟨[], []⟩ with
  | ⟨[t], []⟩ => some t
  | _ => none

/-- **Documents can be read back.** -/
theorem read_text {t : Tree Section} {kind : Kind} (hroot : t.root.form = .document kind)
    (hbelow : ∀ s ∈ t.below.preorder, s.form = .subgraph) (h : ∀ s ∈ t.preorder, s.Plain) :
    read (text t) = some t := by
  have hplain : ∀ l ∈ (Forest.cons t.root t.below .nil).lines, l.2.Plain := by
    refine fun l hl => Forest.plain_of_mem_lines (fun s hs => h s ?_) hl
    simpa [Forest.preorder, Tree.preorder] using hs
  rw [read, toList_text hroot hbelow, splitOn_flatMap_chars hplain, List.dropLast_concat,
    Line.mapM_ofChars? hplain]
  simp only [Option.bind_eq_bind, Option.bind_some, Reading.foldlM_lines]
  rfl

/-- All clusters are indented alike, and `c` is read as a part of `b`. -/
example :
    (read ("graph \"a\" \x7b\n" ++ "  subgraph \"b\" \x7b\n" ++ "  subgraph \"c\" \x7b\n" ++
      "  \x7d\n" ++ "  \x7d\n" ++ "\x7d\n")).map (Tree.map Section.name) =
        some ⟨"a", .cons "b" (.cons "c" .nil .nil) .nil⟩ := by
  rfl

end Outline

end DotBuilder
