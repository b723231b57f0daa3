import DotBuilder.Outline.Section

/-!
# Documents as lines

A document is printed as one text, but no line of it depends on more than the section that it stands
in.  This file takes a document apart into its lines.

* `Line`, `Line.text` : what a line says, and the line as it is printed;
* `Forest.lines` : the lines of a row of sections, from the first opening line to the last closing
  one;
* `toList_text` : the text of a document is its lines, each with a line break behind it;
* `splitOn_flatMap_chars` : if no name and no statement has a line break inside, the lines are what
  lies between the line breaks.
-/

namespace DotBuilder

/-- What a line of a document says. -/
inductive Line where
  /-- A section begins. -/
  | opening (form : Form) (name : String)
  /-- A block of defaults, as its scope and its attribute list. -/
  | defaults (d : Scope × String)
  /-- A node or an edge. -/
  | statement (s : String)
  /-- The section ends. -/
  | closing
  deriving DecidableEq, Repr

namespace Line

/-- A line without its line break, in a section of a given form. -/
def text (form : Form) : Line → String
  | opening opened name => opened.keyword ++ " " ++ Text.inQuotes name ++ " \x7b"
  | defaults d => form.indent ++ Section.defaultsText d ++ ";"
  | statement s => form.indent ++ s ++ ";"
  | closing => match form with
    | .document _ => "\x7d"
    | .subgraph => "  \x7d"

/-- A line with its line break. -/
def chars (l : Form × Line) : List Char := (l.2.text l.1).toList ++ ['\n']

/-- What a line has to say so that it is one line: there are no line breaks inside, and a statement
begins with a name in quotes. -/
def Plain : Line → Prop
  | opening _ name => '\n' ∉ name.toList
  | defaults d => '\n' ∉ d.2.toList
  | statement s => '\n' ∉ s.toList ∧ s.toList.head? = some '"'
  | closing => True

theorem Plain.newline_notMem {l : Line} (h : l.Plain) (form : Form) :
    '\n' ∉ (l.text form).toList := by
  have hindent : '\n' ∉ form.indent.toList := by cases form <;> simp [Form.indent]
  cases l with
  | opening opened name =>
    have hkeyword : '\n' ∉ opened.keyword.toList := by
      rcases opened with (_ | _) | _ <;> decide
    have hname : '\n' ∉ name.toList := h
    simp [text, Text.toList_inQuotes, hkeyword, hname]
  | defaults d =>
    have hscope : '\n' ∉ d.1.keyword.toList := by
      cases d.1 <;> decide
    have hlist : '\n' ∉ d.2.toList := h
    simp [text, Section.defaultsText, hindent, hscope, hlist]
  | statement s => simp [text, hindent, h.1]
  | closing => cases form <;> simp [text]

end Line

/-- Lines without line breaks inside are what lies between the line breaks. -/
theorem splitOn_flatMap_chars {ls : List (Form × Line)} (h : ∀ l ∈ ls, l.2.Plain) :
    (ls.flatMap Line.chars).splitOn '\n' = ls.map (fun l => (l.2.text l.1).toList) ++ [[]] := by
  induction ls with
  | nil => rfl
  | cons l ls ih =>
    have hl : '\n' ∉ (l.2.text l.1).toList := (h l (List.mem_cons_self ..)).newline_notMem l.1
    have hls : ∀ l ∈ ls, l.2.Plain := fun l' hl' => h l' (List.mem_cons_of_mem _ hl')
    rw [List.flatMap_cons, Line.chars, List.append_assoc, List.singleton_append,
      List.splitOn_append_cons_self_of_not_mem hl, ih hls, List.map_cons, List.cons_append]

/-! ## The lines of a section -/

namespace Section

variable {s : Section} {clusters : String}

/-- A section all of whose lines are plain. -/
structure Plain (s : Section) : Prop where
  name : '\n' ∉ s.name.toList
  defaults : ∀ d ∈ s.defaults, '\n' ∉ d.2.toList
  statements : ∀ x ∈ s.statements, '\n' ∉ x.toList ∧ x.toList.head? = some '"'

/-- The lines in front of the clusters of a section, each with the form of the section. -/
def linesBefore (s : Section) : List (Form × Line) :=
  (s.form, .opening s.form s.name) :: s.defaults.map fun d => (s.form, .defaults d)

/-- The lines behind the clusters of a section, but for the closing one. -/
def linesBehind (s : Section) : List (Form × Line) :=
  s.statements.map fun x => (s.form, .statement x)

theorem toList_linesBefore :
    s.linesBefore.flatMap Line.chars =
      (s.opening ++ String.join (s.defaults.map fun d => s.line (defaultsText d))).toList := by
  simp [linesBefore, Line.chars, Line.text, opening, line, List.flatMap_map]

theorem toList_linesBehind :
    s.linesBehind.flatMap Line.chars = (String.join (s.statements.map s.line)).toList := by
  simp [linesBehind, Line.chars, Line.text, line, List.flatMap_map]

end Section

namespace Forest

/-- The lines of a row of sections. -/
def lines : Forest Section → List (Form × Line)
  | nil => []
  | cons s below rest =>
    s.linesBefore ++ below.lines ++ s.linesBehind ++ (s.form, .closing) :: rest.lines

theorem plain_of_mem_lines {F : Forest Section} (h : ∀ s ∈ F.preorder, s.Plain)
    {l : Form × Line} (hl : l ∈ F.lines) : l.2.Plain := by
  induction F with
  | nil => cases hl
  | cons s below rest ihb ihr =>
    obtain ⟨hs, hbelow, hrest⟩ := forall_mem_preorder_cons.1 h
    simp only [lines, List.mem_append, List.mem_cons] at hl
    rcases hl with ((hl | hl) | hl) | rfl | hl
    · rcases List.mem_cons.1 hl with rfl | hl
      · exact hs.name
      · obtain ⟨d, hd, rfl⟩ := List.mem_map.1 hl
        exact hs.defaults d hd
    · exact ihb hbelow hl
    · obtain ⟨x, hx, rfl⟩ := List.mem_map.1 hl
      exact hs.statements x hx
    · trivial
    · exact ihr hrest hl

end Forest

namespace Outline

/-- Sections that are parts of another one are printed as their lines. -/
theorem toList_rowText {F : Forest Section} (h : ∀ s ∈ F.preorder, s.form = .subgraph) :
    (rowText F).toList = F.lines.flatMap Line.chars := by
  induction F with
  | nil => rfl
  | cons s below rest ihb ihr =>
    obtain ⟨hs, hbelow, hrest⟩ := Forest.forall_mem_preorder_cons.1 h
    have hclose : (s.form.closing ++ "\n").toList = Line.chars (s.form, .closing) := by
      rw [hs]
      simp [Form.closing, Line.chars, Line.text]
    simp only [Forest.lines, List.flatMap_append, List.flatMap_cons, Section.toList_linesBefore,
      Section.toList_linesBehind, ← ihb hbelow, ← ihr hrest, ← hclose, rowText, Section.text,
      String.toList_append, List.append_assoc]

theorem toList_text {t : Tree Section} {kind : Kind} (hroot : t.root.form = .document kind)
    (h : ∀ s ∈ t.below.preorder, s.form = .subgraph) :
    (text t).toList = (Forest.cons t.root t.below .nil).lines.flatMap Line.chars := by
  have hclose : t.root.form.closing.toList = Line.chars (t.root.form, .closing) := by
    rw [hroot]
    simp [Form.closing, Line.chars, Line.text]
  simp only [Forest.lines, List.flatMap_append, List.flatMap_cons, Section.toList_linesBefore,
    Section.toList_linesBehind, ← toList_rowText h, ← hclose, text, Section.text,
    String.toList_append, List.append_assoc, List.flatMap_nil, List.append_nil]

end Outline

end DotBuilder
